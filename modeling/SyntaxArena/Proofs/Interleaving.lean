import SyntaxArena.Operation

/-!
# Edits of different tables do not disturb each other

An edit other than a reset reads one of the three tables of an arena and writes the same one. So
sequences of edits of different tables may be merged in any way: every edit gets the answer that it
gets when its own sequence is performed alone, and the arena ends up with the three tables that the
sequences lead to.

- `Table`, `Edit.table?`: the table that an edit acts on.
- `Arena.SameAt`: two arenas have one table in common.
- `Arena.sameAt_apply`: an edit writes no other table.
- `Arena.apply_congr`: an edit reads no other table.
- `Arena.replies`: edits with what they answer and report.
- `Arena.replies_filter`: the replies to the edits of a table, where the other edits are left out.
- `Interleaving`: the ways of merging three sequences.
- `Arena.interleavings_agree`: all of them come to the same.
-/

namespace SyntaxArena

/-! ## The table of an edit -/

/-- The tables of an arena. -/
inductive Table where
  | store | names | types
deriving DecidableEq

/-- The table that an edit acts on. A reset acts on all of them. -/
def Edit.table? : Edit → Option Table
  | .node _ => some .store
  | .intern _ => some .names
  | .type _ => some .types
  | .reset => none

/-- Whether an edit acts on the given table and no other. -/
def Edit.isOn (k : Table) (e : Edit) : Bool := e.table? = some k

theorem Edit.isOn_iff {k : Table} {e : Edit} : e.isOn k = true ↔ e.table? = some k :=
  decide_eq_true_iff

theorem Edit.table?_eq_none_iff {e : Edit} : e.table? = none ↔ e = .reset := by
  cases e <;> simp [table?]

/-- What an operation makes known: its answer and the events it reported. -/
def Outcome.reply {σ : Type} (o : Outcome σ) : Except Fault Answer × List Event :=
  (o.answer, o.events)

namespace Arena

variable {k : Table} {c d e : Arena}

/-- The two arenas have the same table. -/
def SameAt : Table → Arena → Arena → Prop
  | .store, c, d => c.store = d.store
  | .names, c, d => c.names = d.names
  | .types, c, d => c.types = d.types

theorem SameAt.refl (k : Table) (c : Arena) : SameAt k c c := by
  cases k <;> rfl

theorem SameAt.trans (h : SameAt k c d) (h' : SameAt k d e) : SameAt k c e := by
  cases k <;> exact Eq.trans h h'

theorem SameAt.symm (h : SameAt k c d) : SameAt k d c := by
  cases k <;> exact Eq.symm h

/-- An arena is known from its tables. -/
theorem eq_of_sameAt (h : ∀ k, SameAt k c d) : c = d := by
  obtain ⟨store, names, types⟩ := c
  obtain ⟨store', names', types'⟩ := d
  obtain rfl : store = store' := h .store
  obtain rfl : names = names' := h .names
  obtain rfl : types = types' := h .types
  rfl

/-! ## One edit -/

/-- An edit writes no table but its own. -/
theorem sameAt_apply [Build] {j : Table} {e : Edit} (c : Arena) (he : e.table? = some k)
    (hjk : j ≠ k) : SameAt j (c.apply e).state c := by
  obtain ⟨store, names, types⟩ := c
  cases e with
  | reset => cases he
  | _ =>
    cases he
    cases j <;> first | rfl | exact absurd rfl hjk

/-- An edit reads no table but its own: where that one is the same, so are its reply and what it
writes. -/
theorem apply_congr [Build] {e : Edit} (he : e.table? = some k) (h : SameAt k c d) :
    (c.apply e).reply = (d.apply e).reply ∧ SameAt k (c.apply e).state (d.apply e).state := by
  obtain ⟨store, names, types⟩ := c
  obtain ⟨store', names', types'⟩ := d
  cases e with
  | node e =>
    cases he
    obtain rfl : store = store' := h
    exact ⟨rfl, rfl⟩
  | intern text =>
    cases he
    obtain rfl : names = names' := h
    exact ⟨rfl, rfl⟩
  | type e =>
    cases he
    obtain rfl : types = types' := h
    exact ⟨rfl, rfl⟩
  | reset => cases he

/-! ## Sequences of edits -/

/-- Edits performed one after the other, each with its reply. -/
def replies [Build] (c : Arena) : List Edit → List (Edit × Except Fault Answer × List Event)
  | [] => []
  | e :: l => (e, (c.apply e).reply) :: (c.apply e).state.replies l

/-- The edits of one table are answered as if the others were left out, and leave the same table.
The arenas that the two sequences start from need to have no more than this table in common, for
that is all that is left of it after an edit of another table. -/
theorem replies_filter [Build] {l : List Edit} (hl : .reset ∉ l) (h : SameAt k c d) :
    (c.replies l).filter (fun r => r.1.isOn k) = d.replies (l.filter (·.isOn k)) ∧
      SameAt k (c.applyAll l) (d.applyAll (l.filter (·.isOn k))) := by
  induction l generalizing c d with
  | nil => exact ⟨rfl, h⟩
  | cons e l ih =>
    obtain ⟨he, hrest⟩ := not_or.1 (mt List.mem_cons.2 hl)
    by_cases hon : e.isOn k = true
    · obtain ⟨hreply, hstate⟩ := apply_congr (Edit.isOn_iff.1 hon) h
      obtain ⟨hreplies, htable⟩ := ih hrest hstate
      simp only [replies, List.filter_cons, hon, if_true]
      rw [hreplies, hreply]
      exact ⟨rfl, htable⟩
    · obtain ⟨j, hj⟩ := Option.ne_none_iff_exists'.1 (mt Edit.table?_eq_none_iff.1 (Ne.symm he))
      have hkj : k ≠ j := fun hkj => hon (Edit.isOn_iff.2 (hkj ▸ hj))
      simp only [replies, List.filter_cons, hon]
      exact ih hrest ((sameAt_apply c hj hkj).trans h)

/-- The reply to an edit depends on the arena at first and on the earlier edits of its own table. -/
theorem reply_filter [Build] {e : Edit} {before : List Edit} (c : Arena) (hbefore : .reset ∉ before)
    (he : e.table? = some k) :
    ((c.applyAll before).apply e).reply = ((c.applyAll (before.filter (·.isOn k))).apply e).reply :=
  (apply_congr he (replies_filter hbefore (.refl k c)).2).1

end Arena

/-! ## Interleavings -/

/-- A sequence of edits for each table. -/
structure Threads where
  nodes : List NodeEdit
  texts : List String
  types : List TypeEdit

/-- The sequence for a table. -/
def Threads.edits (t : Threads) : Table → List Edit
  | .store => t.nodes.map .node
  | .names => t.texts.map .intern
  | .types => t.types.map .type

/-- The sequences are merged into one, in which each of them keeps its order. -/
inductive Interleaving : Threads → List Edit → Prop where
  | nil : Interleaving ⟨[], [], []⟩ []
  | node {nodes : List NodeEdit} {texts : List String} {types : List TypeEdit} {l : List Edit}
      (e : NodeEdit) (h : Interleaving ⟨nodes, texts, types⟩ l) :
      Interleaving ⟨e :: nodes, texts, types⟩ (.node e :: l)
  | intern {nodes : List NodeEdit} {texts : List String} {types : List TypeEdit} {l : List Edit}
      (text : String) (h : Interleaving ⟨nodes, texts, types⟩ l) :
      Interleaving ⟨nodes, text :: texts, types⟩ (.intern text :: l)
  | type {nodes : List NodeEdit} {texts : List String} {types : List TypeEdit} {l : List Edit}
      (e : TypeEdit) (h : Interleaving ⟨nodes, texts, types⟩ l) :
      Interleaving ⟨nodes, texts, e :: types⟩ (.type e :: l)

namespace Interleaving

variable {t : Threads} {l : List Edit}

/-- Each sequence can be picked out again. -/
theorem filter_isOn (h : Interleaving t l) (k : Table) : l.filter (·.isOn k) = t.edits k := by
  induction h with
  | nil => cases k <;> rfl
  | node e h ih | intern e h ih | type e h ih =>
    rw [List.filter_cons, ih]
    cases k <;> rfl

theorem reset_not_mem (h : Interleaving t l) : .reset ∉ l := by
  induction h with
  | nil => exact List.not_mem_nil
  | node e h ih | intern e h ih | type e h ih => simp [ih]

end Interleaving

namespace Arena

/-- **Edits of different tables commute.** However a sequence of edits of nodes, one of texts and
one of types are merged, from any arena on:

* each edit gets the reply, answer or fault, that it gets when its sequence is performed alone;
* the arena is the same in the end;
* so the reply to an edit depends on the arena at first and on the earlier edits of its own
  table. -/
theorem interleavings_agree [Build] (c : Arena) (t : Threads) {l m : List Edit}
    (hl : Interleaving t l) (hm : Interleaving t m) :
    (∀ k, (c.replies l).filter (fun r => r.1.isOn k) = c.replies (t.edits k) ∧
        (c.replies m).filter (fun r => r.1.isOn k) = c.replies (t.edits k)) ∧
      c.applyAll l = c.applyAll m ∧
      ∀ before e after k, l = before ++ e :: after → e.table? = some k →
        ((c.applyAll before).apply e).reply =
          ((c.applyAll (before.filter (·.isOn k))).apply e).reply := by
  have halone {n : List Edit} (hn : Interleaving t n) (k : Table) :
      (c.replies n).filter (fun r => r.1.isOn k) = c.replies (t.edits k) ∧
        SameAt k (c.applyAll n) (c.applyAll (t.edits k)) := by
    rw [← hn.filter_isOn k]
    exact replies_filter hn.reset_not_mem (.refl k c)
  refine ⟨fun k => ⟨(halone hl k).1, (halone hm k).1⟩, ?_, ?_⟩
  · exact eq_of_sameAt fun k => (halone hl k).2.trans (halone hm k).2.symm
  · rintro before e after k rfl he
    exact c.reply_filter (fun h => hl.reset_not_mem (List.mem_append_left _ h)) he

/-- Two refusals and a call of nodes that do not exist, a text that comes twice, and a pointer to a
pointer. -/
def threads : Threads where
  nodes := [.addExpr (.nullStmt ⟨.invalid⟩), .request none (.call ⟨7⟩ [⟨8⟩] (.builtin .int))]
  texts := ["p", "p"]
  types := [.pointer (.builtin .int), .pointer { id := ⟨8⟩ }]

/-- One after the other. -/
def serial : List Edit := threads.edits .store ++ threads.edits .names ++ threads.edits .types

/-- In turns, the types first. -/
def alternating : List Edit :=
  [.type (.pointer (.builtin .int)), .intern "p", .node (.addExpr (.nullStmt ⟨.invalid⟩)),
    .type (.pointer { id := ⟨8⟩ }), .intern "p",
    .node (.request none (.call ⟨7⟩ [⟨8⟩] (.builtin .int)))]

theorem alternating_agrees_serial :
    Interleaving threads serial ∧ Interleaving threads alternating ∧
      initial.applyAll alternating = initial.applyAll serial ∧
      (initial.replies alternating).filter (fun r => r.1.isOn .names)
        = [(.intern "p", .ok (.name ⟨1⟩), []), (.intern "p", .ok (.name ⟨1⟩), [])] := by
  have hserial : Interleaving threads serial :=
    .node _ (.node _ (.intern _ (.intern _ (.type _ (.type _ .nil)))))
  have halternating : Interleaving threads alternating :=
    .type _ (.intern _ (.node _ (.type _ (.intern _ (.node _ .nil)))))
  obtain ⟨hreplies, hstate, -⟩ := initial.interleavings_agree threads halternating hserial
  exact ⟨hserial, halternating, hstate, (hreplies .names).1.trans rfl⟩

end Arena

end SyntaxArena
