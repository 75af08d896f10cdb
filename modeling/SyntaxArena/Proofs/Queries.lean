import SyntaxArena.Proofs.Comparison
import SyntaxArena.Proofs.Observers
import SyntaxArena.Proofs.WellFormed

/-!
# Queries of well-formed arenas

In a well-formed arena a query about what is there neither fails nor goes in circles, and what it
answers refers to what is there as well.

- `Arena.WellFormed.has_of_ask`: the arena has what an answer refers to.
- `Arena.WithinLimits`: all indices fit into 32 bits.
- `Arena.WellFormed.exists_ask`: a query about what is there has an answer.
-/

namespace SyntaxArena

/-! ## Lookups -/

namespace NodeStore

variable {s : NodeStore} {id : StmtId} {n : Node}

theorem get?_eq_some_iff : s.get? id = some n ↔ s.node id = .ok n := lookup_eq_ok_iff.symm

/-- Only the handle of an expression is taken for one. -/
theorem node_of_asExpr? {e : ExprId} (h : s.asExpr? id = some e) :
    ∃ n, s.node e.toStmt = .ok n ∧ n.isExpr = true := by
  unfold asExpr? at h
  cases hn : s.get? id with
  | none =>
    rw [hn] at h
    cases h
  | some n =>
    rw [hn] at h
    by_cases hexpr : n.isExpr = true
    · obtain rfl : id.toExpr = e := by simpa [hexpr] using h
      exact ⟨n, get?_eq_some_iff.1 hn, hexpr⟩
    · simp [hexpr] at h

/-- Exactly the expressions have a type and categories. -/
theorem exprInfo_eq_ok_iff {e : ExprId} {i : ExprInfo} :
    s.exprInfo e = .ok i ↔ ∃ n, s.node e.toStmt = .ok n ∧ n.info? = some i := by
  rw [exprInfo, Checked.bind_eq_ok_iff]
  refine exists_congr fun n => and_congr_right fun _ => ?_
  cases n.info? with
  | none => simp [throw, throwThe, MonadExceptOf.throw]
  | some info => simp

theorem node_of_mem_toList (h : (id, n) ∈ s.toList) : s.node id = .ok n := by
  obtain ⟨⟨m, index⟩, hm, he⟩ := List.mem_map.1 h
  cases he
  have hget : s.nodes.toList[index]? = some n := List.mem_zipIdx_iff_getElem?.1 hm
  exact get?_eq_some_iff.1 (by rw [← hget]; exact Array.getElem?_toList.symm)

end NodeStore

namespace Arena

variable {c : Arena}

/-! ## What answers refer to -/

/-- Types that a type is made of have smaller indices, and so they exist. -/
theorem WellFormed.has_of_kind (h : c.WellFormed) {id : TypeId} {kind : TypeKind}
    (hkind : c.types.kind id = .ok kind) : ∀ r ∈ kind.references, c.Has r := by
  intro r hr
  obtain ⟨q, hq, rfl⟩ := List.mem_map.1 hr
  have hlt : q.id.index < c.types.size :=
    Nat.lt_trans (h.components id kind hkind q hq) (TypeTable.index_lt_of_kind hkind)
  exact TypeTable.exists_kind hlt

/-- The arena has what an answer refers to. -/
theorem WellFormed.has_of_ask (h : c.WellFormed) {q : Query} {a : Answer} (ha : c.ask q = .ok a) :
    ∀ r ∈ a.references, c.Has r := by
  intro r hr
  cases q with
  | node id =>
    obtain ⟨n, hn, rfl⟩ := Checked.return_eq_ok_iff.1 ha
    exact h.references id n hn r hr
  | get? id =>
    obtain rfl := Checked.pure_eq_ok_iff.1 ha
    obtain ⟨n, hn, hr⟩ := List.mem_flatMap.1 hr
    have hnode : c.store.node id = .ok n := NodeStore.get?_eq_some_iff.1 (Option.mem_toList.1 hn)
    exact h.references id n hnode r hr
  | asExpr? id =>
    obtain rfl := Checked.pure_eq_ok_iff.1 ha
    obtain ⟨e, he, rfl⟩ := List.mem_map.1 hr
    exact NodeStore.node_of_asExpr? (Option.mem_toList.1 he)
  | exprInfo id =>
    obtain ⟨i, hi, rfl⟩ := Checked.return_eq_ok_iff.1 ha
    obtain ⟨n, hn, hinfo⟩ := NodeStore.exprInfo_eq_ok_iff.1 hi
    obtain rfl := List.mem_singleton.1 hr
    exact h.references _ n hn _ (NodeForm.mem_references_of_info hinfo)
  | exprList s =>
    obtain ⟨l, hl, rfl⟩ := Checked.return_eq_ok_iff.1 ha
    obtain ⟨e, he, rfl⟩ := List.mem_map.1 hr
    exact h.exprEntries e (ListPool.mem_entries_of_read hl he)
  | stmtList s =>
    obtain ⟨l, hl, rfl⟩ := Checked.return_eq_ok_iff.1 ha
    obtain ⟨id, hid, rfl⟩ := List.mem_map.1 hr
    exact h.stmtEntries id (ListPool.mem_entries_of_read hl hid)
  | children id =>
    obtain ⟨ids, hids, rfl⟩ := Checked.return_eq_ok_iff.1 ha
    obtain ⟨child, hchild, rfl⟩ := List.mem_map.1 hr
    exact (h.has_child ⟨ids, hids, hchild⟩).2
  | entries =>
    obtain rfl := Checked.pure_eq_ok_iff.1 ha
    obtain ⟨e, he, rfl⟩ := List.mem_map.1 hr
    obtain ⟨⟨id, n⟩, hn, rfl⟩ := List.mem_map.1 he
    exact ⟨n, NodeStore.node_of_mem_toList hn⟩
  | typeKind id =>
    obtain ⟨kind, hkind, rfl⟩ := Checked.return_eq_ok_iff.1 ha
    exact h.has_of_kind hkind r hr
  | walk stops id =>
    obtain ⟨met, hmet, rfl⟩ := Checked.return_eq_ok_iff.1 ha
    obtain ⟨e, he, rfl⟩ := List.mem_map.1 hr
    exact exists_node_of_walk hmet e he
  -- the other answers are texts, numbers, locations and truth values, which refer to nothing
  | size | inspect =>
    obtain rfl := Checked.pure_eq_ok_iff.1 ha
    cases hr
  | inspectNode _ | sameStored _ _ =>
    obtain ⟨n, -, ha⟩ := Checked.bind_eq_ok_iff.1 ha
    obtain ⟨x, -, rfl⟩ := Checked.return_eq_ok_iff.1 ha
    cases hr
  | _ =>
    obtain ⟨x, -, rfl⟩ := Checked.return_eq_ok_iff.1 ha
    cases hr

/-- An operation whose arguments are there keeps an arena well formed, and its answer is there
afterwards. -/
theorem WellFormed.sound_step [Build] (h : c.WellFormed) {op : Operation}
    (hop : ∀ r ∈ op.references, c.Has r) : Sound (c.step op) := by
  cases op with
  | edit e => exact h.sound_apply hop
  | query q => exact ⟨h, fun a ha => h.has_of_ask ha⟩

/-! ## Which queries have an answer -/

/-- All tables are short enough for 32 bits, the invalid index left out. -/
structure WithinLimits (c : Arena) : Prop where
  nodes : c.store.size ≤ invalidIndex
  exprLists : c.store.exprLists.size ≤ invalidIndex
  stmtLists : c.store.stmtLists.size ≤ invalidIndex
  names : c.names.size ≤ invalidIndex
  types : c.types.size ≤ invalidIndex

/-- A node that the arena has does not have the invalid handle. -/
theorem WithinLimits.isValid (h : c.WithinLimits) {r : Reference} (hr : c.Has r) {id : StmtId}
    (hid : r.node? = some id) : id.isValid = true := by
  have hlt : id.index < invalidIndex := Nat.lt_of_lt_of_le (hr.index_lt hid) h.nodes
  rw [StmtId.isValid, bne_iff_ne]
  exact Nat.ne_of_lt hlt

/-- The segments of a node that refers to what is there can be shown. -/
theorem WithinLimits.exists_inspect (h : c.WithinLimits) {n : Node}
    (hn : ∀ r ∈ Node.references n, c.Has r) : ∃ text, n.inspect = .ok text := by
  have hfields : ∃ fs, n.fields = .ok fs := by
    cases n with
    | call n =>
      have hseg : n.args.stop ≤ c.store.exprLists.size :=
        hn (.exprSegment n.args) (by simp [Node.references, NodeForm.references])
      have hstop : n.args.stop < 4294967296 := Nat.lt_succ_of_le (Nat.le_trans hseg h.exprLists)
      have hargs : ∃ text, inspectExprs n.args = .ok text := ⟨_, if_pos hstop⟩
      exact Checked.exists_return hargs
    | compound n =>
      have hseg : n.body.stop ≤ c.store.stmtLists.size :=
        hn (.stmtSegment n.body) (by simp [Node.references, NodeForm.references])
      have hstop : n.body.stop < 4294967296 := Nat.lt_succ_of_le (Nat.le_trans hseg h.stmtLists)
      have hbody : ∃ text, inspectStmts n.body = .ok text := ⟨_, if_pos hstop⟩
      exact Checked.exists_return hbody
    | _ => exact ⟨_, rfl⟩
  exact Checked.exists_return hfields

/-- Nodes that exist can be compared, whichever arenas they stand in. -/
theorem WellFormed.exists_same {d : Arena} (hc : c.WellFormed) (hd : d.WellFormed) {a b : StmtId}
    (ha : c.Has (.stmt a)) (hb : d.Has (.stmt b)) : ∃ r, Comparison.same ⟨c, d⟩ a b = .ok r := by
  obtain ⟨t, ht⟩ := hc.exists_unfold ha
  obtain ⟨u, hu⟩ := hd.exists_unfold hb
  obtain ⟨r, hr, -⟩ : Decides (Comparison.same ⟨c, d⟩ a b) (t = u) := Comparison.same_decides ht hu
  exact ⟨r, hr⟩

/-- A query about what is there has an answer. A comparison with another arena asks the same of that
one. -/
theorem WellFormed.exists_ask (h : c.WellFormed) (hlimits : c.WithinLimits) {q : Query}
    (hq : ∀ r ∈ q.references, c.Has r)
    (hother : ∀ a d b, q = .same a d b → d.WellFormed ∧ d.Has (.stmt b)) :
    ∃ a, c.ask q = .ok a := by
  -- all queries but the comparisons of two nodes refer to at most one thing
  have hfirst : ∀ r, q.references.head? = some r → c.Has r :=
    fun r hr => hq r (List.mem_of_head? hr)
  cases q with
  | node id =>
    have hnode : ∃ n, c.store.node id = .ok n := hfirst _ rfl
    exact Checked.exists_return hnode
  | inspectNode id =>
    obtain ⟨n, hn⟩ := hfirst _ rfl
    have htext : ∃ text, n.inspect = .ok text := hlimits.exists_inspect (h.references id n hn)
    rw [ask, hn]
    exact Checked.exists_return htext
  | sameStored a b =>
    obtain ⟨n, hn⟩ := hfirst _ rfl
    have hm : ∃ m, c.store.node b = .ok m := hq (.stmt b) (by simp [Query.references])
    rw [ask, hn]
    exact Checked.exists_return hm
  | exprInfo id =>
    obtain ⟨n, hn, hexpr⟩ := hfirst _ rfl
    obtain ⟨i, hi⟩ := Option.isSome_iff_exists.1 hexpr
    have hinfo : c.store.exprInfo id = .ok i := NodeStore.exprInfo_eq_ok_iff.2 ⟨n, hn, hi⟩
    exact Checked.exists_return ⟨i, hinfo⟩
  | exprList s =>
    have hlist : ∃ l, c.store.exprLists.read .exprs s = .ok l :=
      (ListPool.exists_read_iff _).2 (hfirst _ rfl)
    exact Checked.exists_return hlist
  | stmtList s =>
    have hlist : ∃ l, c.store.stmtLists.read .stmts s = .ok l :=
      (ListPool.exists_read_iff _).2 (hfirst _ rfl)
    exact Checked.exists_return hlist
  | children id =>
    obtain ⟨n, hn⟩ := hfirst _ rfl
    exact Checked.exists_return (h.exists_children hn)
  | firstLoc id =>
    obtain ⟨tree, htree⟩ := h.exists_unfold (hfirst _ rfl)
    exact Checked.exists_return ⟨tree.firstLoc, firstLoc_of_unfold htree⟩
  | name n =>
    have htext : ∃ text, c.names.text n = .ok text := hfirst _ rfl
    exact Checked.exists_return htext
  | typeKind id =>
    have hkind : ∃ kind, c.types.kind id = .ok kind := hfirst _ rfl
    exact Checked.exists_return hkind
  | spelling t =>
    have htype : c.types.Resolvable t.id := h.type_resolvable (hfirst _ rfl)
    exact Checked.exists_return (TypeTable.exists_spelling_iff.2 htype)
  | outline id =>
    obtain ⟨tree, htree⟩ := h.exists_unfold (hfirst _ rfl)
    exact Checked.exists_return ⟨tree.outline, outline_of_unfold htree⟩
  | sameHere a b =>
    have hb : c.Has (.stmt b) := hq _ (by simp [Query.references])
    exact Checked.exists_return (h.exists_same h (hfirst _ rfl) hb)
  | same a d b =>
    obtain ⟨hd, hb⟩ := hother a d b rfl
    exact Checked.exists_return (h.exists_same hd (hfirst _ rfl) hb)
  | walk stops id =>
    obtain ⟨tree, htree⟩ := h.exists_unfold (hfirst _ rfl)
    exact Checked.exists_return (walk_of_unfold htree stops)
  | visitAll id =>
    obtain ⟨tree, htree⟩ := h.exists_unfold (hfirst _ rfl)
    rw [ask, visitAll_of_unfold htree]
    exact ⟨.done, rfl⟩
  | get? | asExpr? | entries | size | inspect => exact ⟨_, rfl⟩

end Arena

end SyntaxArena
