import SyntaxArena.Proofs.Growth
import SyntaxArena.Proofs.References
import SyntaxArena.Proofs.TypeInterning

/-!
# Well-formed arenas

An arena is well formed when everything that it stores refers to what is there already:

* `references`: a stored node finds its operands, its list, its names and its types, and where an
  expression is meant there is one;
* `descending`: the children of a node, those of its list included, stand before it;
* `exprEntries`, `stmtEntries`: so do the entries of all lists, and those of the expression lists
  are expressions;
* `components`: a compound type is made of types with smaller indices;
* `builtins`, `emptyName`: what needs no operation to be there.

An edit whose arguments are there keeps an arena well formed, and its answer is there afterwards
(`WellFormed.sound_apply`). Nodes of a well-formed arena are resolvable (`WellFormed.resolvable`),
which is what every recursion over nodes and types rests on: that indices go down is the reason why
it ends.
-/

namespace SyntaxArena

/-! ## Tables -/

theorem ListPool.exists_read_iff {α : Type} {p : ListPool α} (storage : ListKind) {s : Segment α} :
    (∃ l, p.read storage s = .ok l) ↔ s.stop ≤ p.size := by
  constructor
  · rintro ⟨l, h⟩
    exact (read_eq_ok_iff.1 h).1
  · intro h
    exact ⟨_, read_eq_ok_iff.2 ⟨h, rfl⟩⟩

/-- The segment of a list that was added lies inside the storage. -/
theorem ListPool.stop_add_le {α : Type} (p : ListPool α) (l : List α) :
    (p.add l).2.stop ≤ (p.add l).1.size :=
  (exists_read_iff .exprs).1 ⟨l, p.read_add .exprs l⟩

theorem ListPool.mem_entries_add {α : Type} {p : ListPool α} {l : List α} {a : α} :
    a ∈ (p.add l).1.entries.toList ↔ a ∈ p.entries.toList ∨ a ∈ l := by
  rw [toList_entries_add, List.mem_append]

/-- What is read from a pool is stored in it. -/
theorem ListPool.mem_entries_of_read {α : Type} {p : ListPool α} {storage : ListKind}
    {s : Segment α} {l : List α} (h : p.read storage s = .ok l) {a : α} (ha : a ∈ l) :
    a ∈ p.entries.toList := by
  obtain ⟨-, rfl⟩ := read_eq_ok_iff.1 h
  exact List.mem_of_mem_drop (List.mem_of_mem_take ha)

namespace NodeStore

variable {s : NodeStore} {id : StmtId} {n : Node}

theorem index_lt_of_node (h : s.node id = .ok n) : id.index < s.size :=
  (Array.getElem?_eq_some_iff.1 (lookup_eq_ok_iff.1 h)).1

theorem exists_node (h : id.index < s.size) : ∃ n, s.node id = .ok n :=
  ⟨_, lookup_eq_ok_iff.2 (Array.getElem?_eq_getElem h)⟩

/-- Adding a node adds it behind the others. -/
theorem node_add_cases {m : Node} (h : (s.add m).1.node id = .ok n) :
    s.node id = .ok n ∨ id.index = s.size ∧ n = m := by
  have hget : (s.nodes.push m)[id.index]? = some n := lookup_eq_ok_iff.1 h
  rw [Array.getElem?_push] at hget
  by_cases hi : id.index = s.nodes.size
  · rw [if_pos hi] at hget
    exact .inr ⟨hi, (Option.some.inj hget).symm⟩
  · rw [if_neg hi] at hget
    exact .inl (lookup_eq_ok_iff.2 hget)

/-- With its list written out, a node refers to what it refers to as it is stored, and to the
entries. -/
theorem mem_references_of_resolve {b : Blueprint} (h : s.resolve n = .ok b) {r : Reference}
    (hr : r ∈ b.references) :
    r ∈ Node.references n ∨ (∃ e ∈ s.exprLists.entries.toList, r = .expr e) ∨
      ∃ id ∈ s.stmtLists.entries.toList, r = .stmt id := by
  cases n with
  | call n =>
    obtain ⟨args, hargs, rfl⟩ := Checked.return_eq_ok_iff.1 h
    rcases List.mem_cons.1 hr with rfl | hr
    · exact .inl List.mem_cons_self
    · rcases List.mem_append.1 hr with hr | hr
      · obtain ⟨e, he, rfl⟩ := List.mem_map.1 hr
        exact .inr (.inl ⟨e, ListPool.mem_entries_of_read hargs he, rfl⟩)
      · exact .inl (List.mem_cons_of_mem _ (List.mem_append_right _ hr))
  | compound n =>
    obtain ⟨body, hbody, rfl⟩ := Checked.return_eq_ok_iff.1 h
    obtain ⟨id, hid, rfl⟩ := List.mem_map.1 hr
    exact .inr (.inr ⟨id, ListPool.mem_entries_of_read hbody hid, rfl⟩)
  | _ =>
    cases h
    exact .inl hr

end NodeStore

namespace Arena

/-! ## What an arena has -/

/-- The arena has what is referred to. -/
def Has (c : Arena) : Reference → Prop
  | .expr id => ∃ n, c.store.node id.toStmt = .ok n ∧ n.isExpr = true
  | .stmt id => ∃ n, c.store.node id = .ok n
  | .exprSegment s => s.stop ≤ c.store.exprLists.size
  | .stmtSegment s => s.stop ≤ c.store.stmtLists.size
  | .name n => ∃ text, c.names.text n = .ok text
  | .type id => ∃ kind, c.types.kind id = .ok kind

variable {c d : Arena}

theorem Has.of_extends {r : Reference} (h : c.Has r) (hcd : c.Extends d) : d.Has r := by
  cases r with
  | expr id =>
    obtain ⟨n, hn, hexpr⟩ := h
    exact ⟨n, hcd.store.node _ _ hn, hexpr⟩
  | stmt id =>
    obtain ⟨n, hn⟩ := h
    exact ⟨n, hcd.store.node _ _ hn⟩
  | exprSegment s =>
    show s.stop ≤ d.store.exprLists.size
    obtain ⟨l, hl⟩ := (ListPool.exists_read_iff .exprs).2 h
    exact (ListPool.exists_read_iff .exprs).1 ⟨l, hcd.store.exprLists _ _ _ hl⟩
  | stmtSegment s =>
    show s.stop ≤ d.store.stmtLists.size
    obtain ⟨l, hl⟩ := (ListPool.exists_read_iff .stmts).2 h
    exact (ListPool.exists_read_iff .stmts).1 ⟨l, hcd.store.stmtLists _ _ _ hl⟩
  | name n =>
    obtain ⟨text, htext⟩ := h
    exact ⟨text, hcd.text htext⟩
  | type id =>
    obtain ⟨kind, hkind⟩ := h
    exact ⟨kind, hcd.kind hkind⟩

/-- An expression is a node. -/
theorem Has.stmt {id : ExprId} (h : c.Has (.expr id)) : c.Has (.stmt id.toStmt) := by
  obtain ⟨n, hn, -⟩ := h
  exact ⟨n, hn⟩

theorem Has.index_lt {r : Reference} (h : c.Has r) {id : StmtId} (hid : r.node? = some id) :
    id.index < c.store.size := by
  cases r with
  | expr e =>
    cases hid
    obtain ⟨n, hn⟩ := h.stmt
    exact NodeStore.index_lt_of_node hn
  | stmt id' =>
    cases hid
    obtain ⟨n, hn⟩ := h
    exact NodeStore.index_lt_of_node hn
  | _ => cases hid

/-- Everything that is stored refers to what is there already. -/
structure WellFormed (c : Arena) : Prop where
  references : ∀ id n, c.store.node id = .ok n → ∀ r ∈ Node.references n, c.Has r
  descending : ∀ id ids, c.store.children id = .ok ids → ∀ child ∈ ids, child.index < id.index
  exprEntries : ∀ e ∈ c.store.exprLists.entries.toList, c.Has (.expr e)
  stmtEntries : ∀ id ∈ c.store.stmtLists.entries.toList, c.Has (.stmt id)
  components : ∀ id kind, c.types.kind id = .ok kind → ∀ q ∈ kind.components, q.id.index < id.index
  builtins : c.HasBuiltins
  emptyName : c.Has (.name .empty)

/-- The list of a node can be read when the arena has what the node refers to. -/
theorem exists_resolve {n : Node} (h : ∀ r ∈ Node.references n, c.Has r) :
    ∃ b, c.store.resolve n = .ok b := by
  cases n with
  | call n =>
    have hseg : c.Has (.exprSegment n.args) := h _ (by simp [Node.references, NodeForm.references])
    obtain ⟨args, hargs⟩ := (ListPool.exists_read_iff .exprs).2 hseg
    exact ⟨_, Checked.bind_eq_ok_iff.2 ⟨args, hargs, rfl⟩⟩
  | compound n =>
    have hseg : c.Has (.stmtSegment n.body) := h _ (by simp [Node.references, NodeForm.references])
    obtain ⟨body, hbody⟩ := (ListPool.exists_read_iff .stmts).2 hseg
    exact ⟨_, Checked.bind_eq_ok_iff.2 ⟨body, hbody, rfl⟩⟩
  | _ => exact ⟨_, rfl⟩

namespace WellFormed

theorem exists_children (h : c.WellFormed) {id : StmtId} {n : Node} (hn : c.store.node id = .ok n) :
    ∃ ids, c.store.children id = .ok ids := by
  obtain ⟨b, hb⟩ := exists_resolve (h.references id n hn)
  exact ⟨_, NodeStore.children_eq_ok_iff.2 ⟨n, b, hn, hb, rfl⟩⟩

/-- With its list written out, a node still refers to what is there. -/
theorem has_of_resolve (h : c.WellFormed) {n : Node} (hn : ∀ r ∈ Node.references n, c.Has r)
    {b : Blueprint} (hb : c.store.resolve n = .ok b) : ∀ r ∈ b.references, c.Has r := by
  intro r hr
  rcases NodeStore.mem_references_of_resolve hb hr with hr | ⟨e, he, rfl⟩ | ⟨id, hid, rfl⟩
  · exact hn r hr
  · exact h.exprEntries e he
  · exact h.stmtEntries id hid

/-- The children of a node that refers to what is there are there. -/
theorem index_lt_of_resolve (h : c.WellFormed) {n : Node} (hn : ∀ r ∈ Node.references n, c.Has r)
    {b : Blueprint} (hb : c.store.resolve n = .ok b) {id : StmtId} (hid : id ∈ b.children) :
    id.index < c.store.size := by
  rw [b.children_eq_filterMap_references] at hid
  obtain ⟨r, hr, hnode⟩ := List.mem_filterMap.1 hid
  exact (h.has_of_resolve hn hb r hr).index_lt hnode

/-- A node that was there keeps its children, so they still stand before it. -/
theorem descending_of_extends (h : c.WellFormed) (hcd : c.Extends d) {id : StmtId} {n : Node}
    (hn : c.store.node id = .ok n) {ids : List StmtId} (hids : d.store.children id = .ok ids) :
    ∀ child ∈ ids, child.index < id.index := by
  obtain ⟨old, hold⟩ := h.exists_children hn
  have hsame := Except.ok.inj (hids.symm.trans (hcd.store.children hold))
  rw [hsame]
  exact h.descending id old hold

/-! ## What an edit keeps -/

/-- An arena that extends a well-formed one is well formed when everything new refers to what was
there before, and new nodes and types come behind the old ones. -/
theorem of_extends (h : c.WellFormed) (hcd : c.Extends d)
    (hnode : ∀ id n, d.store.node id = .ok n →
      c.store.node id = .ok n ∨ id.index = c.store.size ∧ ∀ r ∈ Node.references n, c.Has r)
    (hexpr : ∀ e ∈ d.store.exprLists.entries.toList,
      e ∈ c.store.exprLists.entries.toList ∨ c.Has (.expr e))
    (hstmt : ∀ id ∈ d.store.stmtLists.entries.toList,
      id ∈ c.store.stmtLists.entries.toList ∨ c.Has (.stmt id))
    (htype : ∀ id kind, d.types.kind id = .ok kind →
      c.types.kind id = .ok kind ∨ id.index = c.types.size ∧ ∀ r ∈ kind.references, c.Has r) :
    d.WellFormed where
  references id n hn r hr := by
    rcases hnode id n hn with hold | ⟨-, hnew⟩
    · exact (h.references id n hold r hr).of_extends hcd
    · exact (hnew r hr).of_extends hcd
  descending id ids hids := by
    obtain ⟨n, b, hn, hb, rfl⟩ := NodeStore.children_eq_ok_iff.1 hids
    rcases hnode id n hn with hold | ⟨hid, hnew⟩
    · exact h.descending_of_extends hcd hold hids
    · -- the children of the new node are old ones
      obtain ⟨b', hb'⟩ := exists_resolve hnew
      have hsame : b' = b := Except.ok.inj ((hcd.store.resolve hb').symm.trans hb)
      intro child hchild
      rw [← hsame] at hchild
      rw [hid]
      exact h.index_lt_of_resolve hnew hb' hchild
  exprEntries e he := by
    rcases hexpr e he with hold | hnew
    · exact (h.exprEntries e hold).of_extends hcd
    · exact hnew.of_extends hcd
  stmtEntries id hid := by
    rcases hstmt id hid with hold | hnew
    · exact (h.stmtEntries id hold).of_extends hcd
    · exact hnew.of_extends hcd
  components id kind hkind q hq := by
    rcases htype id kind hkind with hold | ⟨hid, hnew⟩
    · exact h.components id kind hold q hq
    · have hq' : .type q.id ∈ kind.references := List.mem_map.2 ⟨q, hq, rfl⟩
      obtain ⟨below, hbelow⟩ := hnew _ hq'
      rw [hid]
      exact TypeTable.index_lt_of_kind hbelow
  builtins := h.builtins.of_extends hcd
  emptyName := h.emptyName.of_extends hcd

end WellFormed

/-- A fresh arena is well formed. It has no compound types and no nodes. -/
theorem wellFormed_initial : initial.WellFormed where
  references id n hn := nomatch hn
  descending id ids hids := by
    obtain ⟨n, b, hn, -⟩ := NodeStore.children_eq_ok_iff.1 hids
    cases hn
  exprEntries e he := absurd he List.not_mem_nil
  stmtEntries id hid := absurd hid List.not_mem_nil
  components := TypeTable.descending_initial.components
  builtins := TypeTable.descending_initial.builtins
  emptyName := ⟨"", IdentifierTable.text_initial_empty⟩

/-! ## Edits table by table -/

section

variable {store : NodeStore} {names : IdentifierTable} {types : TypeTable}

namespace WellFormed

theorem add (h : WellFormed ⟨store, names, types⟩) {n : Node}
    (hn : ∀ r ∈ Node.references n, Has ⟨store, names, types⟩ r) :
    WellFormed ⟨(store.add n).1, names, types⟩ := by
  refine h.of_extends (.of_store (store.extends_add n)) ?_
    (fun _ => .inl) (fun _ => .inl) (fun _ _ => .inl)
  intro id m hm
  rcases NodeStore.node_add_cases hm with hold | ⟨hid, rfl⟩
  · exact .inl hold
  · exact .inr ⟨hid, hn⟩

theorem addExprList (h : WellFormed ⟨store, names, types⟩) {l : List ExprId}
    (hl : ∀ e ∈ l, Has ⟨store, names, types⟩ (.expr e)) :
    WellFormed ⟨(store.addExprList l).1, names, types⟩ := by
  refine h.of_extends (.of_store (store.extends_addExprList l))
    (fun _ _ => .inl) ?_ (fun _ => .inl) (fun _ _ => .inl)
  intro e he
  rcases ListPool.mem_entries_add.1 he with hold | hnew
  · exact .inl hold
  · exact .inr (hl e hnew)

theorem addStmtList (h : WellFormed ⟨store, names, types⟩) {l : List StmtId}
    (hl : ∀ id ∈ l, Has ⟨store, names, types⟩ (.stmt id)) :
    WellFormed ⟨(store.addStmtList l).1, names, types⟩ := by
  refine h.of_extends (.of_store (store.extends_addStmtList l))
    (fun _ _ => .inl) (fun _ => .inl) ?_ (fun _ _ => .inl)
  intro id hid
  rcases ListPool.mem_entries_add.1 hid with hold | hnew
  · exact .inl hold
  · exact .inr (hl id hnew)

theorem intern (h : WellFormed ⟨store, names, types⟩) (text : String) :
    WellFormed ⟨store, (names.add text).1, types⟩ :=
  h.of_extends ⟨.refl store, names.extends_intern text, fun _ _ h => h⟩
    (fun _ _ => .inl) (fun _ => .inl) (fun _ => .inl) (fun _ _ => .inl)

theorem addType (h : WellFormed ⟨store, names, types⟩) (kind : TypeKind)
    (hkind : ∀ r ∈ kind.references, Has ⟨store, names, types⟩ r) :
    WellFormed ⟨store, names, (types.add kind).1⟩ := by
  refine h.of_extends ⟨.refl store, fun _ _ h => h, types.extends_intern kind⟩
    (fun _ _ => .inl) (fun _ => .inl) (fun _ => .inl) ?_
  intro id kind' hkind'
  rcases Interner.get_intern_cases hkind' with hold | ⟨hid, rfl⟩
  · exact .inl hold
  · exact .inr ⟨hid, hkind⟩

end WellFormed

/-- A node that was added is there. -/
theorem has_add (n : Node) : Has ⟨(store.add n).1, names, types⟩ (.stmt (store.add n).2) :=
  ⟨n, store.node_add n⟩

theorem has_addExprList (l : List ExprId) :
    Has ⟨(store.addExprList l).1, names, types⟩ (.exprSegment (store.addExprList l).2) := by
  show (store.exprLists.add l).2.stop ≤ (store.exprLists.add l).1.size
  exact store.exprLists.stop_add_le l

theorem has_addStmtList (l : List StmtId) :
    Has ⟨(store.addStmtList l).1, names, types⟩ (.stmtSegment (store.addStmtList l).2) := by
  show (store.stmtLists.add l).2.stop ≤ (store.stmtLists.add l).1.size
  exact store.stmtLists.stop_add_le l

/-- The lists of a blueprint are stored first. Afterwards the node that is left to store refers to
what is there. -/
theorem WellFormed.place (h : WellFormed ⟨store, names, types⟩) {b : Blueprint}
    (hb : ∀ r ∈ b.references, Has ⟨store, names, types⟩ r) :
    WellFormed ⟨(store.place b).1, names, types⟩ ∧
      ∀ r ∈ Node.references (store.place b).2, Has ⟨(store.place b).1, names, types⟩ r := by
  have hplaced : ∀ r ∈ b.references, Has ⟨(store.place b).1, names, types⟩ r :=
    fun r hr => (hb r hr).of_extends (.of_store (store.extends_place b))
  cases b with
  | call n =>
    have hargs : ∀ e ∈ n.args, .expr e ∈ Blueprint.references (.call n) := fun e he =>
      List.mem_cons_of_mem _ (List.mem_append_left _ (List.mem_map_of_mem he))
    refine ⟨h.addExprList fun e he => hb _ (hargs e he), ?_⟩
    intro r hr
    -- only the segment is new, the callee and the type were there
    rcases List.mem_cons.1 hr with rfl | hr
    · exact hplaced _ List.mem_cons_self
    · rcases List.mem_append.1 hr with hr | hr
      · obtain rfl := List.mem_singleton.1 hr
        exact has_addExprList n.args
      · exact hplaced r (List.mem_cons_of_mem _ (List.mem_append_right _ hr))
  | compound n =>
    refine ⟨h.addStmtList fun id hid => hb _ (List.mem_map_of_mem hid), ?_⟩
    intro r hr
    obtain rfl := List.mem_singleton.1 hr
    exact has_addStmtList n.body
  | _ => exact ⟨h, hplaced⟩

theorem WellFormed.build (h : WellFormed ⟨store, names, types⟩) {b : Blueprint}
    (hb : ∀ r ∈ b.references, Has ⟨store, names, types⟩ r) :
    WellFormed ⟨(store.build b).1, names, types⟩ := by
  obtain ⟨hplace, hnode⟩ := h.place hb
  exact hplace.add hnode

/-- A node that was built is there, and is an expression if it was built as one. -/
theorem has_build (b : Blueprint) :
    ∀ r ∈ (b.ref (store.build b).2).references, Has ⟨(store.build b).1, names, types⟩ r := by
  intro r hr
  have hnode : (store.build b).1.node (store.build b).2 = .ok (store.place b).2 :=
    NodeStore.node_add _ _
  have hkind : (store.place b).2.isExpr = b.isExpr := by
    rw [NodeForm.isExpr_eq_isExpr_kind, NodeForm.isExpr_eq_isExpr_kind, NodeStore.kind_place]
  unfold NodeForm.ref at hr
  by_cases hexpr : b.isExpr = true
  · rw [if_pos hexpr] at hr
    obtain rfl := List.mem_singleton.1 hr
    exact ⟨_, hnode, hkind.trans hexpr⟩
  · rw [if_neg hexpr] at hr
    obtain rfl := List.mem_singleton.1 hr
    exact ⟨_, hnode⟩

end

/-! ## All edits -/

/-- After an operation the arena is well formed and has what the answer refers to. -/
structure Sound (o : Outcome Arena) : Prop where
  state : o.state.WellFormed
  answer : ∀ a, o.answer = .ok a → ∀ r ∈ a.references, o.state.Has r

theorem Sound.of_ok {o : Outcome Arena} (hstate : o.state.WellFormed) {a : Answer}
    (ha : o.answer = .ok a) (hr : ∀ r ∈ a.references, o.state.Has r) : Sound o where
  state := hstate
  answer a' ha' := by
    obtain rfl := Except.ok.inj (ha.symm.trans ha')
    exact hr

theorem Sound.of_error {o : Outcome Arena} (hstate : o.state.WellFormed) {fault : Fault}
    (hfault : o.answer = .error fault) : Sound o where
  state := hstate
  answer a ha := by
    rw [hfault] at ha
    cases ha

theorem WellFormed.sound_node [Build] (h : c.WellFormed) {e : NodeEdit}
    (he : ∀ r ∈ e.references, c.Has r) : Sound (c.apply (.node e)) := by
  obtain ⟨store, names, types⟩ := c
  cases e with
  | add n =>
    refine .of_ok (h.add he) rfl fun r hr => ?_
    obtain rfl := List.mem_singleton.1 hr
    exact has_add n
  | addExpr n =>
    by_cases hexpr : n.isExpr = true
    · have hstore : store.addExpr n = ((store.add n).1, .ok (store.add n).2.toExpr) := if_pos hexpr
      have hnew : Sound
          ⟨⟨(store.add n).1, names, types⟩, .ok (.built (.expr (store.add n).2.toExpr)), []⟩ := by
        refine .of_ok (h.add he) rfl fun r hr => ?_
        obtain rfl := List.mem_singleton.1 hr
        exact ⟨n, store.node_add n, hexpr⟩
      simpa [Arena.apply, NodeStore.apply, hstore, Outcome.map] using hnew
    · have hstore : store.addExpr n = (store, .error (.notExpressionNode n.kind)) := if_neg hexpr
      have hold : Sound ⟨⟨store, names, types⟩, .error (.notExpressionNode n.kind), []⟩ :=
        .of_error h rfl
      simpa [Arena.apply, NodeStore.apply, hstore, Outcome.map] using hold
  | addExprList l =>
    have hlist : WellFormed ⟨(store.addExprList l).1, names, types⟩ :=
      h.addExprList fun e hel => he (.expr e) (List.mem_map_of_mem hel)
    refine .of_ok hlist rfl fun r hr => ?_
    obtain rfl := List.mem_singleton.1 hr
    exact has_addExprList l
  | addStmtList l =>
    have hlist : WellFormed ⟨(store.addStmtList l).1, names, types⟩ :=
      h.addStmtList fun id hid => he (.stmt id) (List.mem_map_of_mem hid)
    refine .of_ok hlist rfl fun r hr => ?_
    obtain rfl := List.mem_singleton.1 hr
    exact has_addStmtList l
  | construct k => exact .of_ok (h.build he) rfl (has_build k.blueprint)
  | request g r =>
    have hb : ∀ x ∈ (((g.getD .selected).surface).construction r).references,
        Has ⟨store, names, types⟩ x := by
      rw [Construction.references, Surface.blueprint_construction]
      exact he
    exact .of_ok (h.build hb) rfl (has_build _)

theorem WellFormed.sound_type [Build] (h : c.WellFormed) {e : TypeEdit}
    (he : ∀ r ∈ e.references, c.Has r) : Sound (c.apply (.type e)) := by
  obtain ⟨store, names, types⟩ := c
  have hnew {kind : TypeKind} : ∀ r ∈ (Answer.type (types.add kind).2).references,
      Has ⟨store, names, (types.add kind).1⟩ r := by
    intro r hr
    obtain rfl := List.mem_singleton.1 hr
    exact ⟨kind, types.get_intern kind⟩
  cases e with
  | pointer pointee => exact .of_ok (h.addType (.pointer pointee) he) rfl hnew
  | function ret params => exact .of_ok (h.addType (.function ret params) he) rfl hnew

/-- An edit whose arguments are there keeps an arena well formed, and its answer is there
afterwards. -/
theorem WellFormed.sound_apply [Build] (h : c.WellFormed) {e : Edit}
    (he : ∀ r ∈ e.references, c.Has r) : Sound (c.apply e) := by
  cases e with
  | node e => exact h.sound_node he
  | intern text =>
    refine .of_ok (h.intern text) rfl fun r hr => ?_
    obtain rfl := List.mem_singleton.1 hr
    exact ⟨text, c.names.get_intern text⟩
  | type e => exact h.sound_type he
  | reset =>
    refine .of_ok ?_ rfl fun r hr => absurd hr List.not_mem_nil
    rw [state_apply_reset]
    exact wellFormed_initial

/-! ## What can be looked at -/

namespace WellFormed

/-- Types that exist are made of types that exist, all the way down. -/
theorem type_resolvable (h : c.WellFormed) {id : TypeId} (hid : c.Has (.type id)) :
    c.types.Resolvable id := by
  obtain ⟨kind, hkind⟩ := hid
  have hdescending : c.types.Descending := ⟨h.builtins, h.components⟩
  exact hdescending.resolvable (TypeTable.index_lt_of_kind hkind)

theorem spellable (h : c.WellFormed) {n : Node} (hn : ∀ r ∈ Node.references n, c.Has r) :
    c.Spellable n where
  info i hi := h.type_resolvable (hn _ (NodeForm.mem_references_of_info hi))
  declName d hd :=
    hn (.name d.name) (NodeForm.mem_references_of_decl hd (by simp [VarDecl.references]))
  declType d hd :=
    h.type_resolvable (hn _ (NodeForm.mem_references_of_decl hd (by simp [VarDecl.references])))

theorem readable (h : c.WellFormed) {id : StmtId} (hid : c.Has (.stmt id)) : c.Readable id := by
  obtain ⟨n, hn⟩ := hid
  exact ⟨n, hn, h.exists_children hn, h.spellable (h.references id n hn)⟩

theorem has_child (h : c.WellFormed) {a b : StmtId} (hab : c.Child a b) :
    b.index < a.index ∧ c.Has (.stmt b) := by
  obtain ⟨ids, hids, hb⟩ := hab
  obtain ⟨n, -, hn, -⟩ := NodeStore.children_eq_ok_iff.1 hids
  have hlt : b.index < a.index := h.descending a ids hids b hb
  exact ⟨hlt, NodeStore.exists_node (Nat.lt_trans hlt (NodeStore.index_lt_of_node hn))⟩

/-- **The order of the indices.** Nodes refer to what stands before them, so below a node that
exists there is no cycle and nothing is missing. -/
theorem resolvable (h : c.WellFormed) {id : StmtId} (hid : c.Has (.stmt id)) : c.Resolvable id := by
  refine Grounded.of_descending StmtId.index ?_ (h.readable hid)
  -- a child is readable again, with a smaller index than its parent
  intro a b _ hab
  obtain ⟨hlt, hb⟩ := h.has_child hab
  exact ⟨hlt, h.readable hb⟩

theorem exists_unfold (h : c.WellFormed) {id : StmtId} (hid : c.Has (.stmt id)) :
    ∃ tree, c.unfold id = .ok tree :=
  exists_unfold_iff.2 (h.resolvable hid)

end WellFormed

end Arena

end SyntaxArena
