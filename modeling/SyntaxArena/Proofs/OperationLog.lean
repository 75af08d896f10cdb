import Mathlib.Data.List.DropRight
import SyntaxArena.Proofs.TypeRun

/-!
# An arena is its log

What an arena holds is told by the edits since its last reset, in their order, and by nothing else.
Nodes, lists, names and types are read off this log by functions on lists, which know no arena:

* the nodes are those that the edits add, one after the other;
* the entries of the lists are the lists themselves, end to end;
* the names and the types are the texts and the kinds that arrive, each where it arrives first,
  behind those that are there from the start.

- `Log`, `sinceReset`: the edits behind the last reset of a run.
- `Segment.behind`, `Segment.nth`: where a list comes to stand behind others.
- `Log.replay`, `Log.answer`: the arena that a log describes, and what an edit answers at its end.
- `Log.apply_replay`: an edit adds itself to the log.
- `Arena.after_refines_log`: after any run the arena is the one that the log describes, every edit
  has been answered as the log says, and every list has a segment of its own.
-/

namespace SyntaxArena

/-! ## Keys in the order of their arrival -/

section

variable {α : Type} [DecidableEq α]

/-- One arrival more. -/
theorem eraseDups_concat (l : List α) (a : α) :
    (l ++ [a]).eraseDups = if a ∈ l then l.eraseDups else l.eraseDups ++ [a] := by
  rw [List.eraseDups_append]
  by_cases h : a ∈ l
  · rw [if_pos h]
    simp [List.removeAll, h]
  · rw [if_neg h]
    simp [List.removeAll, h, List.eraseDups_cons]

theorem nodup_eraseDups (l : List α) : l.eraseDups.Nodup := by
  induction l using List.reverseRecOn with
  | nil => exact List.nodup_nil
  | append_singleton l a ih =>
    rw [eraseDups_concat]
    by_cases h : a ∈ l
    · rwa [if_pos h]
    · rw [if_neg h, ← List.concat_eq_append]
      exact ih.concat (mt List.mem_eraseDups.1 h)

/-- A key that has arrived keeps its number. -/
theorem idxOf_eraseDups_append {l : List α} {a : α} (h : a ∈ l) (more : List α) :
    (l ++ more).eraseDups.idxOf a = l.eraseDups.idxOf a := by
  rw [List.eraseDups_append, List.idxOf_append_of_mem (List.mem_eraseDups.2 h)]

namespace Interner

/-- The interner of keys that arrive one after the other. -/
def ofArrivals (l : List α) : Interner α where
  keys := l.eraseDups.toArray
  numbers := l.eraseDups.zipIdx.reverse
  distinct := nodup_eraseDups l
  numbered := rfl

/-- A key has the position of its first occurrence as its number. -/
theorem index_intern (t : Interner α) (a : α) :
    (t.intern a).2 = (t.intern a).1.keys.toList.idxOf a := by
  have hget := lookup_eq_ok_iff.1 (t.get_intern a)
  rw [← Array.getElem?_toList] at hget
  obtain ⟨hi, ha⟩ := List.getElem?_eq_some_iff.1 hget
  have hidx := (t.intern a).1.distinct.idxOf_getElem _ hi
  rw [ha] at hidx
  exact hidx.symm

/-- A key that is interned has arrived behind the others. -/
theorem intern_ofArrivals (l : List α) (a : α) :
    (ofArrivals l).intern a = (ofArrivals (l ++ [a]), (l ++ [a]).eraseDups.idxOf a) := by
  have hstate : ((ofArrivals l).intern a).1 = ofArrivals (l ++ [a]) := by
    refine Interner.ext (Array.toList_inj.1 ?_)
    rw [keys_intern]
    simp only [ofArrivals, List.mem_eraseDups, eraseDups_concat]
  refine Prod.ext hstate ?_
  rw [index_intern, hstate]
  rfl

end Interner

end

/-! ## Lists end to end -/

section

variable {α : Type}

namespace Segment

/-- The segment of a list that is stored behind the given entries. An empty list takes no room and
has the segment of every empty list. -/
def behind (before : List α) : List α → Segment α
  | [] => .empty
  | l@(_ :: _) => ⟨before.length, l.length⟩

/-- The segment of one of several lists that are stored end to end. -/
def nth (ls : List (List α)) (i : Nat) : Segment α := behind (ls.take i).flatten (ls[i]?.getD [])

/-- The position is one of the segment. -/
def Holds (s : Segment α) (p : Nat) : Prop := s.start ≤ p ∧ p < s.stop

theorem holds_behind_iff {before l : List α} {p : Nat} :
    (behind before l).Holds p ↔ before.length ≤ p ∧ p < before.length + l.length := by
  cases l with
  | nil =>
    simp only [behind, empty, Holds, stop, List.length_nil]
    omega
  | cons a l => rfl

/-- What a list holds, it holds in front of the lists that come later. -/
theorem holds_nth_lt {ls : List (List α)} {i j p : Nat} (hij : i < j) (hi : (nth ls i).Holds p) :
    p < (ls.take j).flatten.length := by
  have hlt := (holds_behind_iff.1 hi).2
  have hnext :
      (ls.take (i + 1)).flatten.length = (ls.take i).flatten.length + (ls[i]?.getD []).length := by
    rw [List.take_add_one, List.flatten_append, List.length_append]
    cases ls[i]? <;> simp
  have hle : (ls.take (i + 1)).flatten.length ≤ (ls.take j).flatten.length := by
    obtain ⟨rest, hrest⟩ := List.take_prefix_take_left (l := ls) (Nat.succ_le_of_lt hij)
    rw [← hrest, List.flatten_append, List.length_append]
    exact Nat.le_add_right _ _
  omega

/-- No two lists share a position. -/
theorem nth_disjoint {ls : List (List α)} {i j p : Nat} (hi : (nth ls i).Holds p)
    (hj : (nth ls j).Holds p) : i = j := by
  have hi' := (holds_behind_iff.1 hi).1
  have hj' := (holds_behind_iff.1 hj).1
  rcases Nat.lt_trichotomy i j with hlt | heq | hlt
  · exact absurd (holds_nth_lt hlt hi) (by omega)
  · exact heq
  · exact absurd (holds_nth_lt hlt hj) (by omega)

/-- Every position belongs to one of the lists. -/
theorem exists_nth_holds {ls : List (List α)} {p : Nat} (hp : p < ls.flatten.length) :
    ∃ i, (nth ls i).Holds p := by
  induction ls using List.reverseRecOn with
  | nil => exact absurd hp (Nat.not_lt_zero p)
  | append_singleton ls l ih =>
    by_cases hlt : p < ls.flatten.length
    · obtain ⟨i, hi⟩ := ih hlt
      have hlen : i < ls.length := by
        by_contra hge
        rw [nth, List.getElem?_eq_none (Nat.le_of_not_lt hge)] at hi
        exact Nat.not_lt_zero p (show p < 0 from hi.2)
      refine ⟨i, ?_⟩
      rwa [nth, List.take_append_of_le_length (Nat.le_of_lt hlen), List.getElem?_append_left hlen]
    · -- the position is behind all lists but the last one
      rw [List.flatten_concat, List.length_append] at hp
      refine ⟨ls.length, ?_⟩
      rw [nth, List.take_left', List.getElem?_concat_length, holds_behind_iff]
      · exact ⟨Nat.le_of_not_lt hlt, hp⟩
      · rfl

end Segment

namespace ListPool

/-- The pool of lists that are stored end to end. -/
def ofEntries (l : List α) : ListPool α := ⟨l.toArray⟩

theorem add_ofEntries (entries l : List α) :
    (ofEntries entries).add l = (ofEntries (entries ++ l), .behind entries l) := by
  cases l with
  | nil => simp [Segment.behind]
  | cons a l => simp [ofEntries, add, Segment.behind]

/-- Every list is read back from its segment, wherever it stands among the others. -/
theorem read_behind (storage : ListKind) (before l after : List α) :
    (ofEntries (before ++ l ++ after)).read storage (.behind before l) = .ok l := by
  have hadd := (ofEntries before).read_add storage l
  rw [add_ofEntries] at hadd
  have hlast := read_add_of_read after hadd
  rwa [add_ofEntries] at hlast

end ListPool

end

/-! ## What an edit contributes -/

/-- The node as it is stored when its list has the given segment. -/
def Blueprint.stored (args : Segment ExprId) (body : Segment StmtId) (b : Blueprint) : Node :=
  Id.run (b.traverse (fun _ => pure args) (fun _ => pure body))

namespace Edit

/-- The list of expressions that an edit is given to store. -/
def exprs : Edit → List ExprId
  | .node (.addExprList ids) => ids
  | .node (.construct k) => k.args
  | .node (.request _ r) => r.args
  | _ => []

/-- The list of statements that an edit is given to store. -/
def stmts : Edit → List StmtId
  | .node (.addStmtList ids) => ids
  | .node (.construct k) => k.body
  | .node (.request _ r) => r.body
  | _ => []

/-- The node that an edit adds, if it adds one, when its lists have the given segments. -/
def node? (args : Segment ExprId) (body : Segment StmtId) : Edit → Option Node
  | .node (.add n) => some n
  | .node (.addExpr n) => if n.isExpr then some n else none
  | .node (.construct k) => some (k.blueprint.stored args body)
  | .node (.request _ r) => some (r.blueprint.stored args body)
  | _ => none

/-- The text that an edit interns. -/
def text? : Edit → Option String
  | .intern text => some text
  | _ => none

/-- The kind of the type that an edit makes. -/
def kind? : Edit → Option TypeKind
  | .type e => some e.kind
  | _ => none

end Edit

/-! ## Logs -/

/-- Edits in their order. -/
abbrev Log := List Edit

namespace Log

/-- The lists of expressions, end to end. -/
def exprs (log : Log) : List ExprId := log.flatMap Edit.exprs

/-- The lists of statements, end to end. -/
def stmts (log : Log) : List StmtId := log.flatMap Edit.stmts

/-- The nodes that are added, where the first lists come to stand behind the given entries. -/
def nodesBehind (exprs : List ExprId) (stmts : List StmtId) : Log → List Node
  | [] => []
  | e :: log =>
    (e.node? (.behind exprs e.exprs) (.behind stmts e.stmts)).toList ++
      nodesBehind (exprs ++ e.exprs) (stmts ++ e.stmts) log

/-- The nodes that are added. -/
def nodes (log : Log) : List Node := log.nodesBehind [] []

/-- The texts that arrive. The empty text is there first. -/
def texts (log : Log) : List String := "" :: log.filterMap Edit.text?

/-- The kinds that arrive. The builtin types are there first. -/
def kinds (log : Log) : List TypeKind := BuiltinType.all.map .builtin ++ log.filterMap Edit.kind?

/-- The store that a log describes. -/
def store (log : Log) : NodeStore where
  nodes := log.nodes.toArray
  exprLists := .ofEntries log.exprs
  stmtLists := .ofEntries log.stmts

/-- The arena that a log describes. -/
def replay (log : Log) : Arena where
  store := log.store
  names := .ofArrivals log.texts
  types := .ofArrivals log.kinds

/-- Where the list of the `i`-th edit stands among the lists of its kind. -/
def segment {α : Type} (l : Edit → List α) (log : Log) (i : Nat) : Segment α := .nth (log.map l) i

/-- What an edit answers at the end of a log: a node has the next position, a list its segment
behind the others, a text or a kind the position of its first occurrence. -/
def answer (log : Log) : Edit → Except Fault Answer
  | .node (.add _) => .ok (.built (.stmt ⟨log.nodes.length⟩))
  | .node (.addExpr n) =>
    if n.isExpr then .ok (.built (.expr ⟨log.nodes.length⟩)) else .error (.notExpressionNode n.kind)
  | .node (.addExprList ids) => .ok (.exprSegment (.behind log.exprs ids))
  | .node (.addStmtList ids) => .ok (.stmtSegment (.behind log.stmts ids))
  | .node (.construct k) => .ok (.built (k.blueprint.ref ⟨log.nodes.length⟩))
  | .node (.request _ r) => .ok (.built (r.blueprint.ref ⟨log.nodes.length⟩))
  | .intern text => .ok (.name ⟨(log.texts ++ [text]).eraseDups.idxOf text⟩)
  | .type e => .ok (.type { id := ⟨(log.kinds ++ [e.kind]).eraseDups.idxOf e.kind⟩ })
  | .reset => .ok .done

/-- An answer to the `i`-th edit tells where the mark of this edit is: its node at the handle, its
list in the segment, its text or kind at the position of the first occurrence. -/
def Marks (log : Log) (i : Nat) (e : Edit) : Answer → Prop
  | .built ref =>
    ∃ n, e.node? (log.segment Edit.exprs i) (log.segment Edit.stmts i) = some n ∧
      log.store.node ref.toStmt = .ok n
  | .exprSegment s => s = log.segment Edit.exprs i
  | .stmtSegment s => s = log.segment Edit.stmts i
  | .name n => ∃ text, e.text? = some text ∧ n = ⟨log.texts.eraseDups.idxOf text⟩
  | .type t => ∃ kind, e.kind? = some kind ∧ t = { id := ⟨log.kinds.eraseDups.idxOf kind⟩ }
  | _ => True

end Log

/-! ## An edit adds itself to the log -/

/-- Storing a blueprint stores its list behind the others. -/
theorem NodeStore.place_ofEntries (nodes : Array Node) (exprs : List ExprId) (stmts : List StmtId)
    (b : Blueprint) :
    (⟨nodes, .ofEntries exprs, .ofEntries stmts⟩ : NodeStore).place b
      = (⟨nodes, .ofEntries (exprs ++ b.args), .ofEntries (stmts ++ b.body)⟩,
          b.stored (.behind exprs b.args) (.behind stmts b.body)) := by
  cases b with
  | call n =>
    have hadd := ListPool.add_ofEntries exprs n.args
    simp only [place, NodeForm.traverse, addExprList, bind, StateT.bind, hadd, Blueprint.body,
      List.append_nil]
    rfl
  | compound n =>
    have hadd := ListPool.add_ofEntries stmts n.body
    simp only [place, NodeForm.traverse, addStmtList, bind, StateT.bind, hadd, Blueprint.args,
      List.append_nil]
    rfl
  | _ =>
    simp only [Blueprint.args, Blueprint.body, List.append_nil]
    rfl

namespace Log

variable {log : Log}

theorem exprs_concat (log : Log) (e : Edit) : exprs (log ++ [e]) = log.exprs ++ e.exprs := by
  simp [exprs]

theorem stmts_concat (log : Log) (e : Edit) : stmts (log ++ [e]) = log.stmts ++ e.stmts := by
  simp [stmts]

theorem nodesBehind_append (exprs : List ExprId) (stmts : List StmtId) (log more : Log) :
    nodesBehind exprs stmts (log ++ more)
      = nodesBehind exprs stmts log
        ++ nodesBehind (exprs ++ log.exprs) (stmts ++ log.stmts) more := by
  induction log generalizing exprs stmts with
  | nil => simp [nodesBehind, Log.exprs, Log.stmts]
  | cons e log ih => simp [nodesBehind, Log.exprs, Log.stmts, ih]

theorem nodes_append (log more : Log) :
    nodes (log ++ more) = log.nodes ++ more.nodesBehind log.exprs log.stmts :=
  nodesBehind_append [] [] log more

theorem nodes_concat (log : Log) (e : Edit) :
    nodes (log ++ [e])
      = log.nodes ++ (e.node? (.behind log.exprs e.exprs) (.behind log.stmts e.stmts)).toList := by
  rw [nodes_append, nodesBehind, nodesBehind, List.append_nil]

/-- A log goes on with an edit. -/
theorem store_concat (log : Log) (e : Edit) :
    store (log ++ [e])
      = ⟨log.nodes.toArray
            ++ (e.node? (.behind log.exprs e.exprs) (.behind log.stmts e.stmts)).toList,
          .ofEntries (log.exprs ++ e.exprs), .ofEntries (log.stmts ++ e.stmts)⟩ := by
  simp [store, nodes_concat, exprs_concat, stmts_concat]

/-- An edit of nodes adds itself to the log. -/
theorem apply_store [Build] (log : Log) (e : NodeEdit) :
    (log.store.apply e).state = store (log ++ [.node e]) ∧
      (log.store.apply e).answer = log.answer (.node e) := by
  rw [store_concat]
  have hbuild (b : Blueprint) : log.store.build b
      = (⟨log.nodes.toArray.push (b.stored (.behind log.exprs b.args) (.behind log.stmts b.body)),
          .ofEntries (log.exprs ++ b.args), .ofEntries (log.stmts ++ b.body)⟩,
          ⟨log.nodes.length⟩) := by
    rw [NodeStore.build, store, NodeStore.place_ofEntries]
    rfl
  cases e with
  | add n =>
    simp [NodeStore.apply, NodeStore.add, store, Edit.node?, Edit.exprs, Edit.stmts, answer]
  | addExpr n =>
    by_cases hn : n.isExpr
    · simp [NodeStore.apply, NodeStore.addExpr, NodeStore.add, StmtId.toExpr, store, Edit.node?,
        Edit.exprs, Edit.stmts, answer, hn]
    · simp [NodeStore.apply, NodeStore.addExpr, store, Edit.node?, Edit.exprs, Edit.stmts,
        answer, hn]
  | addExprList ids =>
    simp [NodeStore.apply, NodeStore.addExprList, store, Edit.node?, Edit.exprs, Edit.stmts, answer,
      ListPool.add_ofEntries]
  | addStmtList ids =>
    simp [NodeStore.apply, NodeStore.addStmtList, store, Edit.node?, Edit.exprs, Edit.stmts, answer,
      ListPool.add_ofEntries]
  | construct k =>
    simp [NodeStore.apply, NodeStore.construct_eq, hbuild, Edit.node?, Edit.exprs, Edit.stmts,
      answer]
  | request g r =>
    simp [NodeStore.apply, NodeStore.construct_construction, hbuild, Edit.node?, Edit.exprs,
      Edit.stmts, answer]

/-- What adds neither nodes nor lists leaves the store as it is. -/
theorem store_concat_of_none {e : Edit} (hnode : ∀ args body, e.node? args body = none)
    (hexprs : e.exprs = []) (hstmts : e.stmts = []) : store (log ++ [e]) = log.store := by
  rw [store_concat, hnode, hexprs, hstmts, List.append_nil, List.append_nil]
  simp [store]

theorem texts_concat (log : Log) (e : Edit) : texts (log ++ [e]) = log.texts ++ e.text?.toList := by
  cases h : e.text? <;> simp [texts, h]

theorem kinds_concat (log : Log) (e : Edit) : kinds (log ++ [e]) = log.kinds ++ e.kind?.toList := by
  cases h : e.kind? <;> simp [kinds, h]

/-- An edit adds itself to the log. -/
theorem apply_replay [Build] (log : Log) {e : Edit} (he : e ≠ .reset) :
    (log.replay.apply e).state = replay (log ++ [e]) ∧
      (log.replay.apply e).answer = log.answer e := by
  rw [replay, replay, texts_concat, kinds_concat]
  cases e with
  | node e =>
    obtain ⟨hstate, hanswer⟩ := log.apply_store e
    refine ⟨?_, hanswer⟩
    rw [← hstate]
    simp [Edit.text?, Edit.kind?, Arena.apply, Outcome.map]
  | intern text =>
    have hadd := Interner.intern_ofArrivals log.texts text
    rw [store_concat_of_none (fun _ _ => rfl) rfl rfl]
    simp [Edit.text?, Edit.kind?, Arena.apply, Outcome.map, IdentifierTable.apply,
      IdentifierTable.add, hadd, answer]
  | type e =>
    have hadd := Interner.intern_ofArrivals log.kinds e.kind
    rw [store_concat_of_none (fun _ _ => rfl) rfl rfl, Arena.apply_type]
    simp [Edit.text?, Edit.kind?, TypeTable.add, hadd, answer]
  | reset => exact absurd rfl he

theorem replay_nil : replay [] = .initial := rfl

end Log

/-! ## Where the edits of a log left their marks -/

namespace Log

variable {log : Log} {i : Nat} {e : Edit}

/-- The edits before one of them, and those from it on. -/
theorem eq_take_append (h : log[i]? = some e) : log.take i ++ e :: log.drop (i + 1) = log := by
  obtain ⟨hi, rfl⟩ := List.getElem?_eq_some_iff.1 h
  rw [List.getElem_cons_drop, List.take_append_drop]

section

variable {α : Type} {l : Edit → List α}

theorem segment_eq (h : log[i]? = some e) :
    log.segment l i = .behind ((log.take i).flatMap l) (l e) := by
  simp [segment, Segment.nth, List.flatMap_def, h]

/-- The list of an edit reads back from its segment. -/
theorem read_segment (storage : ListKind) (h : log[i]? = some e) :
    (ListPool.ofEntries (log.flatMap l)).read storage (log.segment l i) = .ok (l e) := by
  have hlists : log.flatMap l = (log.take i).flatMap l ++ l e ++ (log.drop (i + 1)).flatMap l := by
    rw [List.append_assoc, ← List.flatMap_cons, ← List.flatMap_append, eq_take_append h]
  rw [segment_eq h, hlists]
  exact ListPool.read_behind _ _ _ _

/-- Every stored entry belongs to the list of one edit. -/
theorem existsUnique_segment {p : Nat} (hp : p < (ListPool.ofEntries (log.flatMap l)).size) :
    ∃! i, (log.segment l i).Holds p := by
  rw [List.flatMap_def] at hp
  obtain ⟨i, hi⟩ := Segment.exists_nth_holds hp
  exact ⟨i, hi, fun j hj => Segment.nth_disjoint hj hi⟩

end

/-- The node of an edit that adds one stands behind the nodes of the edits before it. -/
theorem node_of_node? {n : Node} (h : log[i]? = some e)
    (hn : e.node? (log.segment Edit.exprs i) (log.segment Edit.stmts i) = some n) :
    log.store.node ⟨(nodes (log.take i)).length⟩ = .ok n := by
  have hnodes := nodes_append (log.take i) (e :: log.drop (i + 1))
  rw [eq_take_append h, nodesBehind, exprs, stmts, ← segment_eq h, ← segment_eq h, hn] at hnodes
  rw [NodeStore.node, lookup_eq_ok_iff]
  simp [store, hnodes]

/-- A key that has arrived with an edit keeps the number that it got there. -/
theorem idxOf_arrivals {α : Type} [DecidableEq α] {f : Edit → Option α} {a : α} (seed : List α)
    (h : log[i]? = some e) (ha : f e = some a) :
    (seed ++ (log.take i).filterMap f ++ [a]).eraseDups.idxOf a
      = (seed ++ log.filterMap f).eraseDups.idxOf a := by
  have harrivals :
      log.filterMap f = (log.take i).filterMap f ++ a :: (log.drop (i + 1)).filterMap f := by
    have hsplit := congrArg (List.filterMap f) (eq_take_append h)
    rw [List.filterMap_append, List.filterMap_cons, ha] at hsplit
    exact hsplit.symm
  have hmem : a ∈ seed ++ (log.take i).filterMap f ++ [a] := by simp
  have hlater := idxOf_eraseDups_append hmem ((log.drop (i + 1)).filterMap f)
  rw [harrivals, ← List.append_assoc, ← hlater, List.append_assoc _ [a], List.singleton_append]

/-- What an edit has been answered when it was made still tells where its mark is. -/
theorem marks_of_answer {a : Answer} (h : log[i]? = some e) (ha : answer (log.take i) e = .ok a) :
    log.Marks i e a := by
  cases e with
  | node e =>
    cases e with
    | add n =>
      cases ha
      exact ⟨n, rfl, node_of_node? h rfl⟩
    | addExpr n =>
      by_cases hn : n.isExpr
      · rw [answer, if_pos hn] at ha
        cases ha
        exact ⟨n, if_pos hn, node_of_node? h (if_pos hn)⟩
      · rw [answer, if_neg hn] at ha
        cases ha
    | addExprList ids =>
      cases ha
      exact (segment_eq h).symm
    | addStmtList ids =>
      cases ha
      exact (segment_eq h).symm
    | construct k =>
      cases ha
      refine ⟨_, rfl, ?_⟩
      rw [NodeForm.toStmt_ref]
      exact node_of_node? h rfl
    | request g r =>
      cases ha
      refine ⟨_, rfl, ?_⟩
      rw [NodeForm.toStmt_ref]
      exact node_of_node? h rfl
  | intern text =>
    cases ha
    exact ⟨text, rfl, congrArg Identifier.mk (idxOf_arrivals [""] h rfl)⟩
  | type e =>
    cases ha
    have hindex := idxOf_arrivals (f := Edit.kind?) (BuiltinType.all.map .builtin) h rfl
    exact ⟨e.kind, rfl, congrArg (fun index => ({ id := ⟨index⟩ } : QualType)) hindex⟩
  | reset =>
    cases ha
    trivial

end Log

/-! ## The log of a run -/

namespace Operation

/-- Whether an operation is a reset. -/
def isReset : Operation → Bool
  | .edit .reset => true
  | _ => false

/-- The edit, if the operation is one. -/
def edit? : Operation → Option Edit
  | .edit e => some e
  | .query _ => none

end Operation

/-- The edits behind the last reset. -/
def sinceReset (ops : List Operation) : Log :=
  (ops.rtakeWhile (!·.isReset)).filterMap Operation.edit?

theorem sinceReset_reset (ops : List Operation) : sinceReset (ops ++ [.edit .reset]) = [] := by
  rw [sinceReset, List.rtakeWhile_concat_neg _ _ _ (by simp [Operation.isReset])]
  rfl

theorem sinceReset_query (ops : List Operation) (q : Query) :
    sinceReset (ops ++ [.query q]) = sinceReset ops := by
  rw [sinceReset, List.rtakeWhile_concat_pos _ _ _ (by simp [Operation.isReset])]
  simp [sinceReset, Operation.edit?]

theorem sinceReset_edit (ops : List Operation) {e : Edit} (he : e ≠ .reset) :
    sinceReset (ops ++ [.edit e]) = sinceReset ops ++ [e] := by
  have hgo : (Operation.edit e).isReset = false := by
    cases e with
    | reset => exact absurd rfl he
    | _ => rfl
  rw [sinceReset, List.rtakeWhile_concat_pos _ _ _ (by simp [hgo])]
  simp [sinceReset, Operation.edit?]

namespace Arena

/-- After any run the arena is the one that the log describes. -/
theorem after_eq_replay [Build] (ops : List Operation) :
    Arena.initial.after ops = (sinceReset ops).replay := by
  induction ops using List.reverseRecOn with
  | nil => exact Log.replay_nil.symm
  | append_singleton ops op ih =>
    rw [after_append, after_cons, after_nil, ih]
    cases op with
    | query q => rw [sinceReset_query, state_step_query]
    | edit e =>
      by_cases he : e = .reset
      · rw [he, sinceReset_reset, state_step_reset, Log.replay_nil]
      · rw [sinceReset_edit ops he]
        exact ((sinceReset ops).apply_replay he).1

/-- Every edit on record has been made at some point of the run behind the last reset, when the
edits before it were on record. -/
theorem exists_made {ops : List Operation} {i : Nat} {e : Edit}
    (h : (sinceReset ops)[i]? = some e) :
    ∃ before after, ops = before ++ .edit e :: after ∧ .edit .reset ∉ after ∧
      sinceReset before = (sinceReset ops).take i := by
  induction ops using List.reverseRecOn with
  | nil => cases h
  | append_singleton ops op ih =>
    have hearlier (hop : op ≠ .edit .reset) (hi : (sinceReset ops)[i]? = some e) : ∃ before after,
        ops ++ [op] = before ++ .edit e :: after ∧ .edit .reset ∉ after ∧
          sinceReset before = (sinceReset ops).take i := by
      obtain ⟨before, after, rfl, hafter, hlog⟩ := ih hi
      refine ⟨before, after ++ [op], by simp, ?_, hlog⟩
      simpa [hafter] using Ne.symm hop
    cases op with
    | query q =>
      rw [sinceReset_query] at h ⊢
      exact hearlier nofun h
    | edit e' =>
      by_cases he : e' = .reset
      · rw [he, sinceReset_reset] at h
        cases h
      · rw [sinceReset_edit ops he] at h ⊢
        rcases Nat.lt_trichotomy i (sinceReset ops).length with hlt | rfl | hgt
        · rw [List.getElem?_append_left hlt] at h
          rw [List.take_append_of_le_length (Nat.le_of_lt hlt)]
          exact hearlier (fun h => he (Operation.edit.inj h)) h
        · rw [List.getElem?_concat_length] at h
          cases h
          exact ⟨ops, [], rfl, List.not_mem_nil, by simp⟩
        · rw [List.getElem?_eq_none (by simp; omega)] at h
          cases h

/-- What an edit answers after a run is told by the log. -/
theorem answer_after [Build] (ops : List Operation) (e : Edit) :
    ((Arena.initial.after ops).apply e).answer = (sinceReset ops).answer e := by
  rw [after_eq_replay]
  by_cases he : e = .reset
  · rw [he]
    rfl
  · exact ((sinceReset ops).apply_replay he).2

/-- **An arena is the replay of its log.** After any run it is the arena that the edits since the
last reset describe, and the next edit is answered as they tell. Each of these edits has left its
mark where it was told, and its lists stand in segments of their own, which fill the pools. -/
theorem after_refines_log [Build] (ops : List Operation) :
    Arena.initial.after ops = (sinceReset ops).replay ∧
    (∀ e, ((Arena.initial.after ops).apply e).answer = (sinceReset ops).answer e) ∧
    (∀ i e, (sinceReset ops)[i]? = some e →
      (∃ before after, ops = before ++ .edit e :: after ∧ .edit .reset ∉ after ∧
        sinceReset before = (sinceReset ops).take i ∧
        ∀ a, ((Arena.initial.after before).apply e).answer = .ok a → (sinceReset ops).Marks i e a) ∧
      (Arena.initial.after ops).store.exprLists.read .exprs ((sinceReset ops).segment Edit.exprs i)
        = .ok e.exprs ∧
      (Arena.initial.after ops).store.stmtLists.read .stmts ((sinceReset ops).segment Edit.stmts i)
        = .ok e.stmts) ∧
    (∀ p < (Arena.initial.after ops).store.exprLists.size,
      ∃! i, ((sinceReset ops).segment Edit.exprs i).Holds p) ∧
    ∀ p < (Arena.initial.after ops).store.stmtLists.size,
      ∃! i, ((sinceReset ops).segment Edit.stmts i).Holds p := by
  refine ⟨after_eq_replay ops, answer_after ops, fun i e he => ?_, fun p hp => ?_, fun p hp => ?_⟩
  · rw [after_eq_replay ops]
    refine ⟨?_, Log.read_segment _ he, Log.read_segment _ he⟩
    obtain ⟨before, after, hops, hafter, hlog⟩ := exists_made he
    refine ⟨before, after, hops, hafter, hlog, fun a ha => ?_⟩
    rw [answer_after, hlog] at ha
    exact Log.marks_of_answer he ha
  · rw [after_eq_replay] at hp
    exact Log.existsUnique_segment hp
  · rw [after_eq_replay] at hp
    exact Log.existsUnique_segment hp

/-- After a reset a statement is refused as an expression, lists of handles that lead nowhere are
stored, and a call with one argument is built. -/
def recorded : List Operation :=
  [.edit (.intern "old"), .edit .reset, .edit (.node (.addExpr (.nullStmt ⟨.invalid⟩))),
    .edit (.node (.addExprList [⟨7⟩, ⟨9⟩])), .edit (.node (.addExprList [])), .query .size,
    .edit (.intern "p"), .edit (.intern ""),
    .edit (.node (.request none (.call ⟨4⟩ [⟨2⟩] (.builtin .int))))]

theorem recorded_refines_log :
    ((Arena.initial.after recorded).apply (.intern "p")).answer = .ok (.name ⟨1⟩) ∧
      (Arena.initial.after recorded).store.exprLists.read .exprs ⟨0, 2⟩ = .ok [⟨7⟩, ⟨9⟩] ∧
      (Arena.initial.after recorded).store.node ⟨0⟩
        = .ok (.call ⟨⟨4⟩, ⟨2, 1⟩, .prvalue (.builtin .int), .invalid⟩) ∧
      ∃! i, ((sinceReset recorded).segment Edit.exprs i).Holds 2 := by
  obtain ⟨-, hanswer, hmark, hfill, -⟩ := after_refines_log recorded
  refine ⟨(hanswer _).trans (by decide +kernel), (hmark 1 _ rfl).2.1, ?_,
    hfill 2 (by decide +kernel)⟩
  obtain ⟨before, after, -, -, hlog, hbuilt⟩ := (hmark 5 _ rfl).1
  obtain ⟨n, hn, hnode⟩ := hbuilt (.built (.expr ⟨0⟩)) (by rw [answer_after, hlog]; rfl)
  cases hn
  rw [after_eq_replay]
  exact hnode

end Arena

end SyntaxArena
