import Mathlib.Data.List.Nodup
import Mathlib.Data.List.ProdSigma
import SyntaxArena.Proofs.Comparison
import SyntaxArena.Proofs.Splitting

/-!
# Spellings identify types

A spelling leaves two things out: the qualifiers of a function type, wherever it stands, and whether
a function has no parameters or one that is `void`. Everything else of the tree is in it, since the
tree can be read back from the right: qualifiers and a star for a pointer, parentheses for the
parameters of a function.

- `TypeTree.collapse`: the tree without what spellings leave out.
- `TypeTree.closed_text`: in a spelling parentheses come in pairs, and commas stand in parentheses.
- `TypeTree.spelling_eq_iff`: two trees are spelt alike exactly if they collapse to the same tree.
- `Comparison.sameType_decides_collapse_eq`: so are two types of any two arenas.
-/

namespace SyntaxArena

/-! ## The characters of a spelling -/

/-- The characters of words: letters, the underscore and the space between two words. -/
def isWordChar (c : Char) : Bool := c.isAlpha || c == '_' || c == ' '

/-- The characters that are not part of a word. -/
def isTypeSign (c : Char) : Bool := c == '(' || c == ')' || c == '*' || c == ','

/-- The characters of spellings. -/
def isTypeChar (c : Char) : Bool := isWordChar c || isTypeSign c

theorem isTypeSign_of_isWordChar {c : Char} (h : isWordChar c) : ¬isTypeSign c := by
  intro hsign
  simp only [isTypeSign, Bool.or_eq_true, beq_iff_eq] at hsign
  rcases hsign with ((rfl | rfl) | rfl) | rfl <;> exact absurd h (by decide)

namespace Qualifiers

/-- Every set of qualifiers. -/
def all : List Qualifiers :=
  [false, true].flatMap fun c => [false, true].flatMap fun v => [false, true].map fun r => ⟨c, v, r⟩

theorem mem_all (q : Qualifiers) : q ∈ all := by
  obtain ⟨_ | _, _ | _, _ | _⟩ := q <;> decide

theorem isWordChar_spelling (q : Qualifiers) : ∀ c ∈ q.spelling.toList, isWordChar c := by
  have table : ∀ q ∈ all, q.spelling.toList.all isWordChar := by decide +kernel
  exact List.all_eq_true.1 (table q (mem_all q))

end Qualifiers

namespace BuiltinType

theorem mem_all (b : BuiltinType) : b ∈ all := by
  cases b <;> decide

theorem isWordChar_name (b : BuiltinType) : ∀ c ∈ b.name.toList, isWordChar c :=
  List.all_eq_true.1 (by cases b <;> decide)

end BuiltinType

namespace TypeTree

/-! ## Texts -/

/-- The spelling, character by character. -/
def text (t : TypeTree) : List Char := t.spelling.toList

/-- The texts between the parentheses of a function, one for no parameters, too. -/
def paramTexts : List TypeTree → List (List Char)
  | [] => ["void".toList]
  | p :: ps => p.text :: ps.map text

/-- What stands between the parentheses of a function. -/
def paramText (ps : List TypeTree) : List Char := ", ".toList.intercalate (paramTexts ps)

theorem toList_spellParams (ps : List TypeTree) :
    (TypeTable.spellParams (spellings ps)).toList = paramText ps := by
  cases ps with
  | nil => simp [spellings, TypeTable.spellParams, paramText, paramTexts]
  | cons p ps =>
    rw [spellings_eq_map, List.map_cons, TypeTable.spellParams, String.toList_intercalate,
      List.map_cons, List.map_map]
    rfl

theorem text_function (quals : Qualifiers) (r : TypeTree) (ps : List TypeTree) :
    (function quals r ps).text = (r.text ++ " ".toList ++ '(' :: paramText ps) ++ ')' :: [] := by
  simp [text, spelling, toList_spellParams]

theorem text_pointer_function (quals q : Qualifiers) (r : TypeTree) (ps : List TypeTree) :
    (pointer quals (function q r ps)).text =
      (r.text ++ " (*)".toList ++ '(' :: paramText ps) ++ ')' :: quals.spelling.toList := by
  simp [text, spelling, toList_spellParams]

theorem text_pointer {p : TypeTree} (hp : ∀ q r ps, p ≠ function q r ps) (quals : Qualifiers) :
    (pointer quals p).text = (p.text ++ " ".toList) ++ '*' :: quals.spelling.toList := by
  cases p with
  | function q r ps => exact absurd rfl (hp q r ps)
  | _ => simp [text, spelling]

theorem isWordChar_builtin (quals : Qualifiers) (b : BuiltinType) :
    ∀ c ∈ (builtin quals b).text, isWordChar c := by
  rw [text, spelling]
  split
  · exact b.isWordChar_name
  · simp only [String.toList_append, List.mem_append]
    rintro c ((hc | hc) | hc)
    · exact quals.isWordChar_spelling c hc
    · obtain rfl : c = ' ' := by simpa using hc
      rfl
    · exact b.isWordChar_name c hc

theorem builtin_eq_of_text {q q' : Qualifiers} {b b' : BuiltinType}
    (h : (builtin q b).text = (builtin q' b').text) : q = q' ∧ b = b' := by
  have table :
      ((Qualifiers.all ×ˢ BuiltinType.all).map fun x => (builtin x.1 x.2).spelling).Nodup := by
    decide +kernel
  have hmem (q : Qualifiers) (b : BuiltinType) : (q, b) ∈ Qualifiers.all ×ˢ BuiltinType.all :=
    List.mem_product.2 ⟨Qualifiers.mem_all q, BuiltinType.mem_all b⟩
  exact Prod.mk.inj (List.inj_on_of_nodup_map table (hmem q b) (hmem q' b') (String.toList_inj.1 h))

/-- Induction along the recursion of `spelling`, which goes down two layers at once where a pointer
points to a function. -/
@[elab_as_elim]
theorem spelling_induction {P : TypeTree → Prop} (builtin : ∀ quals b, P (builtin quals b))
    (pointer_function : ∀ quals q r ps, P r → (∀ p ∈ ps, P p) → P (pointer quals (function q r ps)))
    (pointer : ∀ quals p, (∀ q r ps, p ≠ function q r ps) → P p → P (pointer quals p))
    (function : ∀ quals r ps, P r → (∀ p ∈ ps, P p) → P (function quals r ps)) (t : TypeTree) :
    P t := by
  refine spelling.induct P (fun ps => ∀ p ∈ ps, P p) (fun q b _ => builtin q b)
    (fun q b _ => builtin q b) pointer_function pointer function ?_ ?_ t
  · simp
  · exact fun p ps hp hps => List.forall_mem_cons.2 ⟨hp, hps⟩

theorem closed_of_isWordChar {s : List Char} (h : ∀ c ∈ s, isWordChar c) : Nesting.Closed s := by
  refine .of_plain fun c hc => ?_
  have hc := isTypeSign_of_isWordChar (h c hc)
  simp only [isTypeSign, Bool.or_eq_true, beq_iff_eq, not_or] at hc
  exact ⟨hc.1.1.1, hc.1.1.2, hc.2⟩

theorem closed_paramTexts {ps : List TypeTree} (h : ∀ p ∈ ps, Nesting.Closed p.text) :
    ∀ s ∈ paramTexts ps, Nesting.Closed s := by
  cases ps with
  | nil => simp [paramTexts]; decide
  | cons p ps => simpa [paramTexts] using h

/-- In a spelling parentheses come in pairs, and commas stand in parentheses. -/
theorem closed_text (t : TypeTree) : Nesting.Closed t.text := by
  induction t using spelling_induction with
  | builtin quals b => exact closed_of_isWordChar (isWordChar_builtin quals b)
  | pointer_function quals q r ps hr hps =>
    have hparams := (Nesting.balanced_intercalate (closed_paramTexts hps)).closed
    have hmark : Nesting.Closed " (*)".toList := by decide
    have htext :=
      ((hr.append hmark).append hparams).append (closed_of_isWordChar quals.isWordChar_spelling)
    simpa [text_pointer_function, paramText] using htext
  | pointer quals p hp ih =>
    have hmark : Nesting.Closed " *".toList := by decide
    have htext := (ih.append hmark).append (closed_of_isWordChar quals.isWordChar_spelling)
    simpa [text_pointer hp] using htext
  | function quals r ps hr hps =>
    have hparams := (Nesting.balanced_intercalate (closed_paramTexts hps)).closed
    have hmark : Nesting.Closed " ".toList := by decide
    have htext := (hr.append hmark).append hparams
    simpa [text_function, paramText] using htext

theorem isTypeChar_paramText {ps : List TypeTree} (h : ∀ p ∈ ps, ∀ c ∈ p.text, isTypeChar c) :
    ∀ c ∈ paramText ps, isTypeChar c := by
  cases ps with
  | nil => exact List.all_eq_true.1 (by decide)
  | cons p ps =>
    have hcomma : ∀ c ∈ ", ".toList, isTypeChar c := List.all_eq_true.1 (by decide)
    rw [paramText, paramTexts, Nesting.intercalate_cons, List.flatMap_map]
    simp only [List.forall_mem_append, List.forall_mem_flatMap]
    exact ⟨h p List.mem_cons_self, fun q hq => ⟨hcomma, h q (List.mem_cons_of_mem p hq)⟩⟩

/-- Spellings have no characters but those of words and signs. -/
theorem isTypeChar_text (t : TypeTree) : ∀ c ∈ t.text, isTypeChar c := by
  have hword {s : List Char} (h : ∀ c ∈ s, isWordChar c) : ∀ c ∈ s, isTypeChar c := fun c hc => by
    simp [isTypeChar, h c hc]
  induction t using spelling_induction with
  | builtin quals b => exact hword (isWordChar_builtin quals b)
  | pointer_function quals q r ps hr hps =>
    rw [text_pointer_function]
    simp only [List.forall_mem_append, List.forall_mem_cons]
    exact ⟨⟨⟨hr, List.all_eq_true.1 (by decide)⟩, rfl, isTypeChar_paramText hps⟩, rfl,
      hword quals.isWordChar_spelling⟩
  | pointer quals p hp ih =>
    rw [text_pointer hp]
    simp only [List.forall_mem_append, List.forall_mem_cons]
    exact ⟨⟨ih, List.all_eq_true.1 (by decide)⟩, rfl, hword quals.isWordChar_spelling⟩
  | function quals r ps hr hps =>
    rw [text_function]
    simp only [List.forall_mem_append, List.forall_mem_cons]
    exact ⟨⟨⟨hr, List.all_eq_true.1 (by decide)⟩, rfl, isTypeChar_paramText hps⟩, rfl, by simp⟩

/-! ## Reading a spelling from the right -/

/-- The last sign of a text with a word behind it. -/
theorem split_sign {u v s t : List Char} {a b : Char} (ha : isTypeSign a) (hb : isTypeSign b)
    (hs : ∀ c ∈ s, isWordChar c) (ht : ∀ c ∈ t, isWordChar c) (h : u ++ a :: s = v ++ b :: t) :
    u = v ∧ a = b ∧ s = t :=
  Splitting.eq_of_last (p := fun c => isTypeSign c) ha hb
    (fun c hc => isTypeSign_of_isWordChar (hs c hc))
    (fun c hc => isTypeSign_of_isWordChar (ht c hc)) h

/-- Only a builtin type has a spelling without a sign. -/
theorem eq_builtin_of_text {t : TypeTree} {quals : Qualifiers} {b : BuiltinType}
    (h : t.text = (builtin quals b).text) : t = builtin quals b := by
  have hne {u v : List Char} {a : Char} (ha : isTypeSign a) (ht : t.text = u ++ a :: v) :
      False := by
    have hmem : a ∈ t.text := ht ▸ List.mem_append_right u List.mem_cons_self
    exact isTypeSign_of_isWordChar (isWordChar_builtin quals b a (h ▸ hmem)) ha
  induction t using spelling_induction with
  | builtin q b' =>
    obtain ⟨rfl, rfl⟩ := builtin_eq_of_text h
    rfl
  | pointer_function q q' r ps => exact (hne (by decide) (text_pointer_function q q' r ps)).elim
  | pointer q p hp => exact (hne (by decide) (text_pointer hp q)).elim
  | function q r ps => exact (hne (by decide) (text_function q r ps)).elim

theorem paramTexts_ne_nil (ps : List TypeTree) : paramTexts ps ≠ [] := by
  cases ps <;> exact List.cons_ne_nil _ _

theorem balanced_paramText (ps : List TypeTree) : Nesting.Balanced (paramText ps) :=
  Nesting.balanced_intercalate (closed_paramTexts fun p _ => p.closed_text)

/-- A text that ends with parameters in parentheses and a word. -/
theorem split_call {u v s t : List Char} {ps qs : List TypeTree} (hs : ∀ c ∈ s, isWordChar c)
    (ht : ∀ c ∈ t, isWordChar c)
    (h : (u ++ '(' :: paramText ps) ++ ')' :: s = (v ++ '(' :: paramText qs) ++ ')' :: t) :
    u = v ∧ paramTexts ps = paramTexts qs ∧ s = t := by
  obtain ⟨h, -, hst⟩ := split_sign (by decide) (by decide) hs ht h
  obtain ⟨huv, h⟩ := (balanced_paramText ps).split (balanced_paramText qs) h
  have hparams := Nesting.intercalate_injective (closed_paramTexts fun p _ => p.closed_text)
    (closed_paramTexts fun p _ => p.closed_text) (paramTexts_ne_nil ps) (paramTexts_ne_nil qs) h
  exact ⟨huv, hparams, hst⟩

/-- Behind the last sign of a pointer to anything but a function there is no parenthesis. -/
theorem text_pointer_ne {p : TypeTree} (hp : ∀ q r ps, p ≠ function q r ps) (quals : Qualifiers)
    {v t : List Char} (ht : ∀ c ∈ t, isWordChar c) : (pointer quals p).text ≠ v ++ ')' :: t := by
  intro h
  obtain ⟨-, hsign, -⟩ := split_sign (by decide) (by decide) quals.isWordChar_spelling ht
    ((text_pointer hp quals).symm.trans h)
  cases hsign

/-- In front of the parameters of a function there is a parenthesis only where it is pointed to. -/
theorem text_pointer_function_ne {quals q q' : Qualifiers} {r r' : TypeTree}
    {ps ps' : List TypeTree} :
    (pointer quals (function q r ps)).text ≠ (function q' r' ps').text := by
  intro h
  rw [text_pointer_function, text_function] at h
  obtain ⟨hr, -, -⟩ := split_call quals.isWordChar_spelling (by simp) h
  simpa using congrArg List.getLast? hr

/-! ## What spellings leave out -/

/-- The parameters of a function, where one that is `void` stands for none. -/
def dropVoid : List TypeTree → List TypeTree
  | [.builtin ⟨false, false, false⟩ .void] => []
  | params => params

mutual

/-- The tree without what spellings leave out: the qualifiers of function types are erased, and
parameters that are but a `void` replaced by none. -/
def collapse : TypeTree → TypeTree
  | .builtin quals b => .builtin quals b
  | .pointer quals pointee => .pointer quals pointee.collapse
  | .function _ ret params => .function .none ret.collapse (dropVoid (collapses params))

/-- Several trees without what spellings leave out. -/
def collapses : List TypeTree → List TypeTree
  | [] => []
  | type :: types => type.collapse :: collapses types

end

theorem collapses_eq_map (ps : List TypeTree) : collapses ps = ps.map collapse := by
  induction ps with
  | nil => rfl
  | cons p ps ih => rw [collapses, ih, List.map_cons]

theorem spellParams_dropVoid (ps : List TypeTree) :
    TypeTable.spellParams (spellings (dropVoid ps)) = TypeTable.spellParams (spellings ps) := by
  fun_cases dropVoid ps
  · decide
  · rfl

theorem spellParams_collapses {ps : List TypeTree}
    (h : ∀ p ∈ ps, p.collapse.spelling = p.spelling) :
    TypeTable.spellParams (spellings (dropVoid (collapses ps)))
      = TypeTable.spellParams (spellings ps) := by
  rw [spellParams_dropVoid, collapses_eq_map, spellings_eq_map, spellings_eq_map, List.map_map]
  exact congrArg _ (List.map_congr_left h)

/-- A tree is spelt like what is left of it. -/
theorem spelling_collapse (t : TypeTree) : t.collapse.spelling = t.spelling := by
  induction t using spelling_induction with
  | builtin quals b => rfl
  | pointer_function quals q r ps hr hps =>
    rw [collapse, collapse, spelling, spelling, hr, spellParams_collapses hps]
  | pointer quals p hp ih =>
    cases p with
    | function q r ps => exact absurd rfl (hp q r ps)
    | builtin q b => rfl
    | pointer q p => exact congrArg (· ++ " *" ++ quals.spelling) ih
  | function quals r ps hr hps =>
    rw [collapse, spelling, spelling, hr, spellParams_collapses hps]

/-! ## Trees that are spelt alike -/

theorem dropVoid_eq_of_paramTexts {ps qs : List TypeTree}
    (ih : ∀ p ∈ ps, ∀ u : TypeTree, p.text = u.text → p.collapse = u.collapse)
    (h : paramTexts ps = paramTexts qs) : dropVoid (collapses ps) = dropVoid (collapses qs) := by
  have hvoid : "void".toList = (builtin .none .void).text := by decide
  cases ps with
  | nil =>
    cases qs with
    | nil => rfl
    | cons q qs =>
      obtain ⟨hq, hqs⟩ := List.cons.inj h
      obtain rfl := eq_builtin_of_text (hq.symm.trans hvoid)
      obtain rfl := List.map_eq_nil_iff.1 hqs.symm
      rfl
  | cons p ps =>
    cases qs with
    | nil =>
      obtain ⟨hp, hps⟩ := List.cons.inj h
      obtain rfl := eq_builtin_of_text (hp.trans hvoid)
      obtain rfl := List.map_eq_nil_iff.1 hps
      rfl
    | cons q qs =>
      rw [collapses_eq_map, collapses_eq_map]
      have htexts : (p :: ps).map text = (q :: qs).map text := h
      exact congrArg dropVoid (Splitting.map_eq_of_map_eq (fun a ha b _ => ih a ha b) htexts)

/-- What is left of a tree can be read off its spelling. The induction is on the tree on the left;
the last sign, and the one before the parameters, tell that the tree on the right is made alike. -/
theorem collapse_eq_of_text {t u : TypeTree} (h : t.text = u.text) : t.collapse = u.collapse := by
  have hnil : ∀ c ∈ ([] : List Char), isWordChar c := by simp
  induction t using spelling_induction generalizing u with
  | builtin quals b => rw [eq_builtin_of_text h.symm]
  | pointer_function quals q r ps ihr ihps =>
    induction u using spelling_induction with
    | builtin quals' b' => cases eq_builtin_of_text h
    | pointer_function quals' q' r' ps' _ _ =>
      rw [text_pointer_function, text_pointer_function] at h
      obtain ⟨hr, hps, hquals⟩ := split_call quals.isWordChar_spelling quals'.isWordChar_spelling h
      rw [collapse, collapse, collapse, collapse, ihr (List.append_cancel_right hr),
        dropVoid_eq_of_paramTexts ihps hps,
        Qualifiers.spelling_injective (String.toList_inj.1 hquals)]
    | pointer quals' p' hp' _ =>
      rw [text_pointer_function] at h
      exact absurd h.symm (text_pointer_ne hp' quals' quals.isWordChar_spelling)
    | function quals' r' ps' _ _ => exact absurd h text_pointer_function_ne
  | pointer quals p hp ihp =>
    induction u using spelling_induction with
    | builtin quals' b' => cases eq_builtin_of_text h
    | pointer_function quals' q' r' ps' _ _ =>
      rw [text_pointer_function] at h
      exact absurd h (text_pointer_ne hp quals quals'.isWordChar_spelling)
    | pointer quals' p' hp' _ =>
      rw [text_pointer hp, text_pointer hp'] at h
      obtain ⟨hp, -, hquals⟩ := split_sign (by decide) (by decide) quals.isWordChar_spelling
        quals'.isWordChar_spelling h
      rw [collapse, collapse, ihp (List.append_cancel_right hp),
        Qualifiers.spelling_injective (String.toList_inj.1 hquals)]
    | function quals' r' ps' _ _ =>
      rw [text_function] at h
      exact absurd h (text_pointer_ne hp quals hnil)
  | function quals r ps ihr ihps =>
    induction u using spelling_induction with
    | builtin quals' b' => cases eq_builtin_of_text h
    | pointer_function quals' q' r' ps' _ _ => exact absurd h.symm text_pointer_function_ne
    | pointer quals' p' hp' _ =>
      rw [text_function] at h
      exact absurd h.symm (text_pointer_ne hp' quals' hnil)
    | function quals' r' ps' _ _ =>
      rw [text_function, text_function] at h
      obtain ⟨hr, hps, -⟩ := split_call hnil hnil h
      rw [collapse, collapse, ihr (List.append_cancel_right hr), dropVoid_eq_of_paramTexts ihps hps]

/-- Two trees are spelt alike exactly if the same is left of them. -/
theorem spelling_eq_iff {t u : TypeTree} : t.spelling = u.spelling ↔ t.collapse = u.collapse := by
  constructor
  · exact fun h => collapse_eq_of_text (congrArg String.toList h)
  · intro h
    rw [← t.spelling_collapse, h, u.spelling_collapse]

end TypeTree

/-! ## Types of any two arenas -/

/-- **Spellings identify types**, but for the two things that they leave out. Whatever arenas two
resolvable types come from and however their tables were filled: both types have trees, the
spellings are those of the trees, and they are equal exactly if the trees collapse to the same one.
This is what comparing types across arenas decides. -/
theorem Comparison.sameType_decides_collapse_eq (c : Comparison) {p q : QualType}
    (hp : c.lhs.types.Resolvable p.id) (hq : c.rhs.types.Resolvable q.id) :
    ∃ t u, c.lhs.types.tree p = .ok t ∧ c.rhs.types.tree q = .ok u ∧
      c.lhs.types.spelling p = .ok t.spelling ∧ c.rhs.types.spelling q = .ok u.spelling ∧
      (t.spelling = u.spelling ↔ t.collapse = u.collapse) ∧
      Decides (c.sameType p q) (t.collapse = u.collapse) := by
  obtain ⟨t, ht⟩ := TypeTable.exists_tree_iff.2 hp
  obtain ⟨u, hu⟩ := TypeTable.exists_tree_iff.2 hq
  have hpt := TypeTable.spelling_of_tree ht
  have hqu := TypeTable.spelling_of_tree hu
  have hiff : t.spelling = u.spelling ↔ t.collapse = u.collapse := TypeTree.spelling_eq_iff
  exact ⟨t, u, ht, hu, hpt, hqu, hiff, (Decides.agree hpt hqu).congr hiff⟩

/-- On the left a pointer to a `const` function whose parameter is `void`; on the right, where a
pointer to `char` was made before it, one to a function without parameters. -/
def Comparison.sampleTypes : Comparison where
  lhs :=
    { types := ((TypeTable.initial.function (.builtin .int) [.builtin .void]).1.pointer
        { id := ⟨8⟩, quals := { isConst := true } }).1 }
  rhs :=
    { types :=
        (((TypeTable.initial.pointer (.builtin .char)).1.function (.builtin .int) []).1.pointer
          { id := ⟨9⟩ }).1 }

theorem Comparison.sampleTypes_collapse_eq :
    ∃ t u, sampleTypes.lhs.types.tree { id := ⟨9⟩ } = .ok t ∧
      sampleTypes.rhs.types.tree { id := ⟨10⟩ } = .ok u ∧ t ≠ u ∧ t.collapse = u.collapse := by
  obtain ⟨t, u, ht, hu, -, -, -, hdecides⟩ :=
    sampleTypes.sameType_decides_collapse_eq (p := { id := ⟨9⟩ }) (q := { id := ⟨10⟩ })
      (TypeTable.exists_tree_iff.1 ⟨_, rfl⟩) (TypeTable.exists_tree_iff.1 ⟨_, rfl⟩)
  refine ⟨t, u, ht, hu, ?_, hdecides.iff.1 (by decide +kernel)⟩
  rintro rfl
  cases ht
  cases hu

end SyntaxArena
