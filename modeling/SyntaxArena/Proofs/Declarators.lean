import Mathlib.Data.List.SplitBy
import SyntaxArena.Proofs.TypeSpelling

/-!
# Spellings and declarators

C writes a type around what is derived from it: what is derived from a pointer to a function stands
with the star in parentheses, in front of the parameters. A spelling goes from left to right and has
these parentheses around the star alone. The two agree as long as nothing is derived from such a
pointer and it has no qualifiers.

- `tokens`: the words and signs of a text.
- `TypeTree.declarator`: a type as C writes it around what is derived from it.
- `TypeTree.Legal`: the types that C has.
- `TypeTree.IsPlain`: a type without a function in it, on whose right everything is written.
- `TypeTree.InOrder`: the types that are spelt as C writes them.
- `TypeTable.spelling_eq_declarator_iff`: they are exactly these.
-/

namespace SyntaxArena

/-! ## Tokens -/

/-- The characters that join to a word. -/
def isLetter (c : Char) : Bool := c.isAlphanum || c == '_'

/-- The tokens of a text: words, and any other characters one by one. White space between them is
left out. -/
def tokens (s : List Char) : List String :=
  ((s.splitBy fun a b => isLetter a && isLetter b).filter fun w => !w.all Char.isWhitespace).map
    String.ofList

/-- A character that joins to no word stands between the tokens on its left and those on its
right. -/
theorem tokens_split {c : Char} (hc : ¬isLetter c) (u v : List Char) :
    tokens (u ++ c :: v) = tokens u ++ (tokens [c] ++ tokens v) := by
  have hleft : tokens (u ++ c :: v) = tokens u ++ tokens (c :: v) := by
    unfold tokens
    rw [List.splitBy_append_cons v (by simp [hc]), List.filter_append, List.map_append]
  have hright : tokens ([c] ++ v) = tokens [c] ++ tokens v := by
    unfold tokens
    rw [List.splitBy_append (by simp [hc]), List.filter_append, List.map_append]
  exact hleft.trans (congrArg _ hright)

theorem Qualifiers.tokens_spelling (q : Qualifiers) : tokens q.spelling.toList = q.words := by
  have table : ∀ q ∈ all, tokens q.spelling.toList = q.words := by decide +kernel
  exact table q (mem_all q)

/-- Where a parenthesis comes first, no qualifiers stand before it. -/
theorem Qualifiers.eq_none_of_words_append {q : Qualifiers} {l m : List String}
    (h : ")" :: l = q.words ++ m) : q = .none ∧ ")" :: l = m := by
  have table : ∀ q ∈ all, ")" ∉ q.words := by decide +kernel
  cases hwords : q.words with
  | nil =>
    rw [hwords] at h
    exact ⟨spelling_injective (congrArg " ".intercalate hwords), h⟩
  | cons w ws =>
    rw [hwords] at h
    have hmem : ")" ∈ q.words := by
      rw [hwords, (List.cons.inj h).1]
      exact List.mem_cons_self
    exact absurd hmem (table q (mem_all q))

/-- The tokens between the parentheses of a function. -/
def paramTokens : List (List String) → List String
  | [] => ["void"]
  | p :: ps => p ++ ps.flatMap ("," :: ·)

namespace TypeTree

/-! ## The tokens of a spelling -/

/-- The spelling, token by token. -/
def spelt (t : TypeTree) : List String := tokens t.text

theorem tokens_paramText (ps : List TypeTree) :
    tokens (paramText ps) = paramTokens (ps.map spelt) := by
  have hlist (s : List Char) (ps : List TypeTree) :
      tokens (s ++ (ps.map text).flatMap (", ".toList ++ ·))
        = tokens s ++ (ps.map spelt).flatMap ("," :: ·) := by
    induction ps generalizing s with
    | nil => simp
    | cons p ps ih =>
      change tokens
        (s ++ ',' :: ([] ++ ' ' :: (p.text ++ (ps.map text).flatMap (", ".toList ++ ·)))) = _
      rw [tokens_split (by decide), tokens_split (by decide), ih]
      rfl
  cases ps with
  | nil => decide +kernel
  | cons p ps =>
    rw [paramText, paramTexts, Nesting.intercalate_cons, hlist]
    rfl

theorem spelt_builtin (quals : Qualifiers) (b : BuiltinType) :
    (builtin quals b).spelt = quals.words ++ tokens b.name.toList := by
  rw [← quals.tokens_spelling, spelt, text, spelling]
  split
  · next hnone =>
    rw [hnone]
    rfl
  · have htext : (quals.spelling ++ " " ++ b.name).toList
        = quals.spelling.toList ++ ' ' :: b.name.toList := by simp
    rw [htext, tokens_split (by decide)]
    rfl

theorem spelt_pointer_function (quals q : Qualifiers) (r : TypeTree) (ps : List TypeTree) :
    (pointer quals (function q r ps)).spelt =
      r.spelt ++ "(" :: "*" :: ")" :: "(" ::
        (paramTokens (ps.map spelt) ++ ")" :: quals.words) := by
  -- each sign has something on its left, if nothing else the empty text, so that `tokens_split`
  -- applies to it
  have htext : (pointer quals (function q r ps)).text =
      r.text ++ ' ' :: ([] ++ '(' :: ([] ++ '*' :: ([] ++ ')' ::
        ([] ++ '(' :: (paramText ps ++ ')' :: quals.spelling.toList))))) := by
    simp [text_pointer_function]
  rw [spelt, htext]
  iterate 6 rw [tokens_split (by decide)]
  rw [tokens_paramText, quals.tokens_spelling]
  rfl

theorem spelt_pointer {p : TypeTree} (hp : ∀ q r ps, p ≠ function q r ps) (quals : Qualifiers) :
    (pointer quals p).spelt = p.spelt ++ "*" :: quals.words := by
  have htext : (pointer quals p).text = p.text ++ ' ' :: ([] ++ '*' :: quals.spelling.toList) := by
    simp [text_pointer hp]
  rw [spelt, htext, tokens_split (by decide), tokens_split (by decide), quals.tokens_spelling]
  rfl

theorem spelt_function (quals : Qualifiers) (r : TypeTree) (ps : List TypeTree) :
    (function quals r ps).spelt = r.spelt ++ "(" :: (paramTokens (ps.map spelt) ++ [")"]) := by
  have htext :
      (function quals r ps).text = r.text ++ ' ' :: ([] ++ '(' :: (paramText ps ++ ')' :: [])) := by
    simp [text_function]
  rw [spelt, htext]
  iterate 3 rw [tokens_split (by decide)]
  rw [tokens_paramText]
  rfl

/-! ## Declarators -/

/-- Whether the type is one of functions. -/
def isFunction : TypeTree → Bool
  | .function .. => true
  | _ => false

mutual

/-- A type as C writes it around `d`, which is derived from it. -/
def declarator : TypeTree → List String → List String
  | .builtin quals b, d => quals.words ++ tokens b.name.toList ++ d
  | .pointer quals p, d =>
    p.declarator
      (if p.isFunction then "(" :: "*" :: quals.words ++ d ++ [")"] else "*" :: quals.words ++ d)
  | .function _ r ps, d => r.declarator (d ++ "(" :: paramTokens (declarators ps) ++ [")"])

/-- Several types as C writes them alone. -/
def declarators : List TypeTree → List (List String)
  | [] => []
  | type :: types => type.declarator [] :: declarators types

end

theorem declarators_eq_map (types : List TypeTree) :
    declarators types = types.map (declarator · []) := by
  induction types with
  | nil => rfl
  | cons type types ih => rw [declarators, ih, List.map_cons]

/-- The types that C has: a function returns no function, is not qualified, and has no parameter
that is a function or `void`. -/
inductive Legal : TypeTree → Prop where
  | builtin (quals : Qualifiers) (b : BuiltinType) : Legal (.builtin quals b)
  | pointer (quals : Qualifiers) {p : TypeTree} (hp : Legal p) : Legal (.pointer quals p)
  | function {r : TypeTree} {ps : List TypeTree} (hr : Legal r) (hret : ¬r.isFunction)
      (hps : ∀ p ∈ ps, Legal p) (hparam : ∀ p ∈ ps, ¬p.isFunction ∧ p ≠ .builtin .none .void) :
      Legal (.function .none r ps)

theorem Legal.of_pointer {quals : Qualifiers} {p : TypeTree} (h : Legal (.pointer quals p)) :
    p.Legal := by
  cases h with
  | pointer _ hp => exact hp

theorem Legal.of_function {quals : Qualifiers} {r : TypeTree} {ps : List TypeTree}
    (h : Legal (.function quals r ps)) : r.Legal ∧ ¬r.isFunction ∧ ∀ p ∈ ps, p.Legal := by
  cases h with
  | function hr hret hps _ => exact ⟨hr, hret, hps⟩

/-- No function is in the type, apart from parameters: pointers lead to a builtin type. -/
def IsPlain : TypeTree → Prop
  | .builtin .. => True
  | .pointer _ p => p.IsPlain
  | .function .. => False

/-- The types that C writes from left to right: a function, or an unqualified pointer to one, is
derived from a plain type, and nothing is derived from it. The same holds of each parameter. -/
inductive InOrder : TypeTree → Prop where
  | builtin (quals : Qualifiers) (b : BuiltinType) : InOrder (.builtin quals b)
  | pointer (quals : Qualifiers) {p : TypeTree} (hp : p.IsPlain) : InOrder (.pointer quals p)
  | function (quals : Qualifiers) {r : TypeTree} {ps : List TypeTree} (hr : r.IsPlain)
      (hps : ∀ p ∈ ps, InOrder p) : InOrder (.function quals r ps)
  | pointerFunction {quals : Qualifiers} {r : TypeTree} {ps : List TypeTree}
      (hfunction : InOrder (.function quals r ps)) : InOrder (.pointer .none (.function quals r ps))

theorem not_isFunction {p : TypeTree} (hp : ∀ q r ps, p ≠ function q r ps) : ¬p.isFunction := by
  cases p with
  | function q r ps => exact absurd rfl (hp q r ps)
  | builtin | pointer => exact Bool.false_ne_true

theorem declarator_pointer {p : TypeTree} (hp : ∀ q r ps, p ≠ function q r ps) (quals : Qualifiers)
    (d : List String) :
    (pointer quals p).declarator d = p.declarator ("*" :: (quals.words ++ d)) := by
  cases p with
  | function q r ps => exact absurd rfl (hp q r ps)
  | builtin | pointer => rfl

theorem declarator_pointer_function (quals q : Qualifiers) (r : TypeTree) (ps : List TypeTree)
    (d : List String) :
    (pointer quals (function q r ps)).declarator d =
      r.declarator ("(" :: "*" ::
        (quals.words ++ d ++ ")" :: "(" :: (paramTokens (ps.map (declarator · [])) ++ [")"]))) := by
  rw [declarator, declarator, declarators_eq_map]
  simp [isFunction]

theorem declarator_function (quals : Qualifiers) (r : TypeTree) (ps : List TypeTree)
    (d : List String) :
    (function quals r ps).declarator d =
      r.declarator (d ++ "(" :: (paramTokens (ps.map (declarator · [])) ++ [")"])) := by
  rw [declarator, declarators_eq_map]
  simp

/-! ## Parameters -/

section Params

variable {ps : List TypeTree} {f g : TypeTree → List String}

theorem length_paramTokens (h : ∀ p ∈ ps, (f p).length = (g p).length) :
    (paramTokens (ps.map f)).length = (paramTokens (ps.map g)).length := by
  cases ps with
  | nil => rfl
  | cons p ps =>
    obtain ⟨hp, hps⟩ := List.forall_mem_cons.1 h
    have hrest : ps.map (fun p => (f p).length + 1) = ps.map (fun p => (g p).length + 1) :=
      List.map_congr_left fun q hq => congrArg (· + 1) (hps q hq)
    simp [paramTokens, List.length_flatMap, Function.comp_def, hp, hrest]

/-- Where parameters take as many tokens one by one, they are known from the whole. -/
theorem paramTokens_eq_iff (h : ∀ p ∈ ps, (f p).length = (g p).length) :
    paramTokens (ps.map f) = paramTokens (ps.map g) ↔ ∀ p ∈ ps, f p = g p := by
  constructor
  · have hrest (ps : List TypeTree) (h : ∀ p ∈ ps, (f p).length = (g p).length)
        (heq : (ps.map f).flatMap ("," :: ·) = (ps.map g).flatMap ("," :: ·)) :
        ∀ p ∈ ps, f p = g p := by
      induction ps with
      | nil => simp
      | cons p ps ih =>
        obtain ⟨hp, hps⟩ := List.forall_mem_cons.1 h
        obtain ⟨hhead, htail⟩ := List.append_inj (List.cons.inj heq).2 hp
        exact List.forall_mem_cons.2 ⟨hhead, ih hps htail⟩
    intro heq
    cases ps with
    | nil => simp
    | cons p ps =>
      obtain ⟨hp, hps⟩ := List.forall_mem_cons.1 h
      obtain ⟨hhead, htail⟩ := List.append_inj heq hp
      exact List.forall_mem_cons.2 ⟨hhead, hrest ps hps htail⟩
  · intro heq
    rw [List.map_congr_left heq]

end Params

/-- A spelling has as many tokens as the declarator. -/
theorem length_declarator (t : TypeTree) (d : List String) :
    (t.declarator d).length = t.spelt.length + d.length := by
  induction t using spelling_induction generalizing d with
  | builtin quals b => simp [declarator, spelt_builtin, Nat.add_assoc]
  | pointer_function quals q r ps hr hps =>
    have hparams := length_paramTokens (f := (declarator · [])) (g := spelt) fun p hp => hps p hp []
    rw [declarator_pointer_function, spelt_pointer_function, hr]
    simp only [List.length_append, List.length_cons, List.length_nil, hparams]
    omega
  | pointer quals p hp ih =>
    rw [declarator_pointer hp, spelt_pointer hp, ih]
    simp only [List.length_append, List.length_cons]
    omega
  | function quals r ps hr hps =>
    have hparams := length_paramTokens (f := (declarator · [])) (g := spelt) fun p hp => hps p hp []
    rw [declarator_function, spelt_function, hr]
    simp only [List.length_append, List.length_cons, List.length_nil, hparams]
    omega

/-! ## Types in order -/

/-- What is derived from a plain type is written on its right. -/
theorem declarator_of_isPlain {t : TypeTree} (ht : t.IsPlain) (d : List String) :
    t.declarator d = t.spelt ++ d := by
  induction t using spelling_induction generalizing d with
  | builtin quals b => rw [declarator, spelt_builtin]
  | pointer_function quals q r ps hr hps => exact absurd ht id
  | pointer quals p hp ih =>
    rw [declarator_pointer hp, ih ht, spelt_pointer hp]
    simp
  | function quals r ps hr hps => exact absurd ht id

/-- Where the spelling goes on behind a type as C does, the type is plain: what is derived from a
pointer to a function stands inside its parentheses in C, and behind them in the spelling. The
induction goes down to the innermost function. -/
theorem isPlain_of_spelt_append {t : TypeTree} (hlegal : t.Legal) (hfunction : ¬t.isFunction)
    {x : String} (hx : x ≠ ")") {s d : List String} (h : t.spelt ++ s = t.declarator (x :: d)) :
    t.IsPlain := by
  induction t using spelling_induction generalizing x s d with
  | builtin quals b => trivial
  | pointer_function quals q r ps ihr _ =>
    obtain ⟨hr, hret, -⟩ := hlegal.of_pointer.of_function
    rw [spelt_pointer_function, declarator_pointer_function, List.append_assoc] at h
    have hplain : r.IsPlain := ihr hr hret (by decide) h
    rw [declarator_of_isPlain hplain] at h
    -- the third token is a parenthesis on the left, and one of the qualifiers or `x` on the right
    have hthird := (List.cons.inj (List.cons.inj (List.append_cancel_left h)).2).2
    rw [List.append_assoc] at hthird
    obtain ⟨-, hthird⟩ := Qualifiers.eq_none_of_words_append hthird
    exact absurd (List.cons.inj hthird).1.symm hx
  | pointer quals p hp ih =>
    rw [spelt_pointer hp, declarator_pointer hp, List.append_assoc] at h
    exact ih hlegal.of_pointer (not_isFunction hp) (by decide) h
  | function quals r ps _ _ => exact absurd rfl hfunction

theorem paramTokens_spelt_iff {ps : List TypeTree}
    (h : ∀ p ∈ ps, p.spelt = p.declarator [] ↔ p.InOrder) :
    paramTokens (ps.map spelt) = paramTokens (ps.map (declarator · [])) ↔ ∀ p ∈ ps, p.InOrder :=
  (paramTokens_eq_iff fun p _ => (p.length_declarator []).symm).trans (forall₂_congr h)

/-- Exactly the types in order are spelt as C writes them. -/
theorem spelt_eq_declarator_iff {t : TypeTree} (hlegal : t.Legal) :
    t.spelt = t.declarator [] ↔ t.InOrder := by
  induction t using spelling_induction with
  | builtin quals b =>
    have hplain : (builtin quals b).IsPlain := trivial
    refine iff_of_true ?_ (.builtin quals b)
    rw [declarator_of_isPlain hplain, List.append_nil]
  | pointer_function quals q r ps _ ihps =>
    obtain ⟨hr, hret, hps⟩ := hlegal.of_pointer.of_function
    have hparams := paramTokens_spelt_iff fun p hp => ihps p hp (hps p hp)
    rw [spelt_pointer_function, declarator_pointer_function, List.append_nil]
    constructor
    · intro heq
      have hplain := isPlain_of_spelt_append hr hret (by decide) heq
      rw [declarator_of_isPlain hplain] at heq
      -- the star is followed by a parenthesis on the left, so no qualifiers follow it on the right
      obtain ⟨rfl, hrest⟩ := Qualifiers.eq_none_of_words_append
        (List.cons.inj (List.cons.inj (List.append_cancel_left heq)).2).2
      have hps := hparams.1 (List.append_cancel_right (List.cons.inj (List.cons.inj hrest).2).2)
      exact .pointerFunction (.function q hplain hps)
    · intro h
      cases h with
      | pointer _ hp => exact hp.elim
      | pointerFunction h =>
        cases h with
        | function _ hplain hps =>
          rw [declarator_of_isPlain hplain, hparams.2 hps]
          rfl
  | pointer quals p hp ih =>
    rw [spelt_pointer hp, declarator_pointer hp, List.append_nil]
    constructor
    · intro heq
      have hplain := isPlain_of_spelt_append hlegal.of_pointer (not_isFunction hp) (by decide) heq
      exact .pointer quals hplain
    · intro h
      cases h with
      | pointer _ hplain => rw [declarator_of_isPlain hplain]
      | pointerFunction _ => exact absurd rfl (hp _ _ _)
  | function quals r ps _ ihps =>
    obtain ⟨hr, hret, hps⟩ := hlegal.of_function
    have hparams := paramTokens_spelt_iff fun p hp => ihps p hp (hps p hp)
    rw [spelt_function, declarator_function, List.nil_append]
    constructor
    · intro heq
      have hplain := isPlain_of_spelt_append hr hret (by decide) heq
      rw [declarator_of_isPlain hplain] at heq
      have hrest := (List.cons.inj (List.append_cancel_left heq)).2
      exact .function quals hplain (hparams.1 (List.append_cancel_right hrest))
    · intro h
      cases h with
      | function _ hplain hps => rw [declarator_of_isPlain hplain, hparams.2 hps]

end TypeTree

/-! ## Types of a table -/

namespace TypeTable

/-- **Spellings in order.** A resolvable type that is legal in C is spelt as C writes it, token by
token, exactly if it is in order: nothing is derived from a function or a pointer to a function in
it, and such a pointer has no qualifier. -/
theorem spelling_eq_declarator_iff (t : TypeTable) (type : QualType) (h : t.Resolvable type.id) :
    ∃ tree text, t.tree type = .ok tree ∧ t.spelling type = .ok text ∧
      (tree.Legal → (tokens text.toList = tree.declarator [] ↔ tree.InOrder)) := by
  obtain ⟨tree, htree⟩ := exists_tree_iff.2 h
  exact ⟨tree, tree.spelling, htree, spelling_of_tree htree, TypeTree.spelt_eq_declarator_iff⟩

/-- Functions from `int` to `int`, pointers to them, pointers to such pointers, and functions
without parameters that return a pointer to a function. -/
def callbacks : TypeTable :=
  let (t, callback) := initial.function (.builtin .int) [.builtin .int]
  let (t, pointer) := t.pointer callback
  let (t, _) := t.pointer pointer
  (t.function pointer []).1

theorem legal_callback :
    (TypeTree.function .none (.builtin .none .int) [.builtin .none .int]).Legal := by
  refine .function (.builtin .none .int) Bool.false_ne_true ?_ ?_
  · exact List.forall_mem_singleton.2 (.builtin .none .int)
  · exact List.forall_mem_singleton.2 ⟨Bool.false_ne_true, nofun⟩

theorem callbacks_in_order :
    callbacks.Resolvable ⟨9⟩ ∧ ∃ tree, callbacks.tree { id := ⟨9⟩ } = .ok tree ∧ tree.Legal ∧
      callbacks.spelling { id := ⟨9⟩ } = .ok "int (*)(int)" ∧
      tokens "int (*)(int)".toList = tree.declarator [] := by
  have hresolvable : callbacks.Resolvable ⟨9⟩ :=
    (@exists_tree_iff callbacks { id := ⟨9⟩ }).1 ⟨_, rfl⟩
  obtain ⟨tree, text, htree, htext, hiff⟩ :=
    callbacks.spelling_eq_declarator_iff { id := ⟨9⟩ } hresolvable
  cases htree
  cases htext
  have hlegal := TypeTree.Legal.pointer .none legal_callback
  have horder : (TypeTree.pointer .none
      (.function .none (.builtin .none .int) [.builtin .none .int])).InOrder :=
    .pointerFunction (.function .none trivial (List.forall_mem_singleton.2 (.builtin .none .int)))
  exact ⟨hresolvable, _, rfl, hlegal, rfl, (hiff hlegal).2 horder⟩

/-- The type is legal in C, which writes it with the tokens `c`, and the text that it is spelt with
has others. -/
def Misspelt (t : TypeTable) (type : QualType) (text : String) (c : List String) : Prop :=
  ∃ tree, t.tree type = .ok tree ∧ tree.Legal ∧ t.spelling type = .ok text ∧
    tree.declarator [] = c ∧ tokens text.toList ≠ c

/-- A pointer to a pointer to a function, a `const` pointer to a function, and a function that
returns a pointer to a function are not spelt as C writes them. -/
theorem callbacks_out_of_order :
    callbacks.Misspelt { id := ⟨10⟩ } "int (*)(int) *"
      ["int", "(", "*", "*", ")", "(", "int", ")"] ∧
      callbacks.Misspelt { id := ⟨9⟩, quals := { isConst := true } } "int (*)(int)const"
        ["int", "(", "*", "const", ")", "(", "int", ")"] ∧
      callbacks.Misspelt { id := ⟨11⟩ } "int (*)(int) (void)"
        ["int", "(", "*", "(", "void", ")", ")", "(", "int", ")"] := by
  have hpointer (quals : Qualifiers) := TypeTree.Legal.pointer quals legal_callback
  have hfunction (r : TypeTree) (hr : r.Legal) (hret : ¬r.isFunction) :
      (TypeTree.function .none r []).Legal :=
    .function hr hret nofun nofun
  refine ⟨⟨_, rfl, .pointer .none (hpointer .none), rfl, ?_, ?_⟩, ⟨_, rfl, hpointer _, rfl, ?_, ?_⟩,
    ⟨_, rfl, hfunction _ (hpointer .none) Bool.false_ne_true, rfl, ?_, ?_⟩⟩ <;> decide +kernel

end TypeTable

end SyntaxArena
