import Mathlib.Data.List.Forall2
import Mathlib.Data.List.TakeWhile
import SyntaxArena.Generation.Version
import SyntaxArena.Proofs.Checked

/-!
# The grammar of versions

A version is written as one to three numerals with dots between them, and blanks at either end do
not count. The reader splits a text at its dots and reads each piece. The grammar puts numerals
together, so that the dots in a version are found again because no numeral has one.

- `Blank.Trims`: a text, and what is left of it without the blanks at either end.
- `Numeral.Denotes`: the numerals of 32-bit numbers, with their values.
- `VersionText`: the texts of versions, with the first two numbers; `VersionText.unique`: which are
  told by the text.
- `Generation.parse_by_grammar`: which generation a text is read as, or why it is refused.
-/

namespace SyntaxArena

/-! ## Blanks at either end -/

namespace Blank

variable {s t u : List Char}

/-- The second text is the first one without the blanks at either end. -/
structure Trims (s t : List Char) : Prop where
  padded : ∃ u v, s = u ++ t ++ v ∧ ∀ c ∈ u ++ v, isBlank c
  head : ∀ c ∈ t.head?, ¬isBlank c
  last : ∀ c ∈ t.getLast?, ¬isBlank c

theorem dropWhile_append (hu : ∀ c ∈ u, isBlank c) (ht : ∀ c ∈ t.head?, ¬isBlank c) :
    (u ++ t).dropWhile isBlank = t := by
  rw [List.dropWhile_append_of_pos hu]
  cases t with
  | nil => rfl
  | cons c t => exact List.dropWhile_cons_of_neg (ht c rfl)

theorem head_dropWhile (s : List Char) : ∀ c ∈ (s.dropWhile isBlank).head?, ¬isBlank c := by
  intro c hc
  have h := List.head?_dropWhile_not isBlank s
  rw [Option.mem_def.1 hc] at h
  exact ne_true_of_eq_false h

theorem trim_append (s : List Char) :
    trim s ++ ((s.dropWhile isBlank).reverse.takeWhile isBlank).reverse = s.dropWhile isBlank := by
  rw [trim, ← List.reverse_append, List.takeWhile_append_dropWhile, List.reverse_reverse]

theorem trims_trim (s : List Char) : Trims s (trim s) := by
  refine ⟨⟨s.takeWhile isBlank, ((s.dropWhile isBlank).reverse.takeWhile isBlank).reverse, ?_,
    fun c hc => ?_⟩, fun c hc => head_dropWhile s c ?_, ?_⟩
  · rw [List.append_assoc, trim_append, List.takeWhile_append_dropWhile]
  · rcases List.mem_append.1 hc with hc | hc
    · exact List.mem_takeWhile_imp hc
    · exact List.mem_takeWhile_imp (List.mem_reverse.1 hc)
  · rw [← trim_append, List.head?_append, Option.mem_def.1 hc]
    rfl
  · rw [trim, List.getLast?_reverse]
    exact head_dropWhile _

theorem Trims.eq (h : Trims s t) : t = trim s := by
  obtain ⟨⟨u, v, rfl, hblank⟩, hhead, hlast⟩ := h
  have hu : ∀ c ∈ u, isBlank c := fun c hc => hblank c (List.mem_append_left v hc)
  have hv : ∀ c ∈ v, isBlank c := fun c hc => hblank c (List.mem_append_right u hc)
  cases t with
  | nil =>
    -- nothing but blanks: all of them are dropped from the front, `v` as well as `u`
    have hall : (u ++ v).dropWhile isBlank = [] := List.dropWhile_eq_nil_iff.2 hblank
    rw [trim, List.append_nil, hall]
    rfl
  | cons c t =>
    have hfront : (u ++ (c :: t ++ v)).dropWhile isBlank = c :: t ++ v := dropWhile_append hu hhead
    have hback : (v.reverse ++ (c :: t).reverse).dropWhile isBlank = (c :: t).reverse := by
      refine dropWhile_append (fun c hc => hv c (List.mem_reverse.1 hc)) ?_
      rwa [List.head?_reverse]
    rw [trim, List.append_assoc, hfront, List.reverse_append, hback, List.reverse_reverse]

theorem trims_iff : Trims s t ↔ t = trim s := ⟨Trims.eq, fun h => h ▸ trims_trim s⟩

end Blank

/-! ## Numerals -/

namespace Numeral

variable {c : Char} {cs ds : List Char} {n : Nat}

/-- One decimal digit or more, zeros leading or not, for a number that fits into 32 bits. -/
structure Digits (ds : List Char) (n : Nat) : Prop where
  nonempty : ds ≠ []
  digits : ∀ c ∈ ds, c.isDigit
  value : Nat.ofDigitChars 10 ds 0 = n
  fits : n < 4294967296

/-- A numeral and its value. One plus sign may stand in front of the digits. -/
inductive Denotes : List Char → Nat → Prop
  | unsigned {ds : List Char} {n : Nat} (h : Digits ds n) : Denotes ds n
  | signed {ds : List Char} {n : Nat} (h : Digits ds n) : Denotes ('+' :: ds) n

theorem digit?_eq_some_iff {d : Nat} : digit? c = some d ↔ c.isDigit ∧ c.toNat - '0'.toNat = d := by
  have hdigit : c.isDigit ↔ '0' ≤ c ∧ c ≤ '9' := by simp [Char.isDigit, Char.le_def]
  rw [digit?, hdigit]
  split
  · next h => simp [h]
  · next h => simp [h]

theorem mapM_digit?_eq_some_iff {l : List Nat} :
    cs.mapM digit? = some l ↔
      (∀ c ∈ cs, c.isDigit) ∧ cs.map (fun c => c.toNat - '0'.toNat) = l := by
  simp only [Checked.mapM_eq_some_iff, digit?_eq_some_iff, List.forall₂_and_left]
  rw [← List.forall₂_eq_eq_eq, List.forall₂_map_left_iff]

theorem value_map (ds : List Char) :
    value (ds.map fun c => c.toNat - '0'.toNat) = Nat.ofDigitChars 10 ds 0 :=
  List.foldl_map

theorem word?_eq_some_iff_digits : word? cs = some n ↔ Digits (unsigned cs) n := by
  simp only [word?, Option.bind_eq_bind, Option.bind_eq_some_iff, mapM_digit?_eq_some_iff]
  constructor
  · rintro ⟨_, ⟨hdigits, rfl⟩, h⟩
    rw [value_map] at h
    split at h
    · cases h
    · next hne =>
      split at h
      · next hfits =>
        cases h
        exact ⟨by simpa using hne, hdigits, rfl, hfits⟩
      · cases h
  · rintro ⟨hne, hdigits, rfl, hfits⟩
    refine ⟨_, ⟨hdigits, rfl⟩, ?_⟩
    rw [value_map, if_neg (by simpa using hne), if_pos hfits]

theorem digits_unsigned_iff : Digits (unsigned cs) n ↔ Denotes cs n := by
  constructor
  · intro h
    unfold unsigned at h
    split at h
    · exact .signed h
    · exact .unsigned h
  · intro h
    cases h with
    | signed h => exact h
    | unsigned h =>
      unfold unsigned
      split
      · -- a plus sign is no digit
        exact absurd (h.digits '+' List.mem_cons_self) (by decide)
      · exact h

theorem word?_eq_some_iff : word? cs = some n ↔ Denotes cs n :=
  word?_eq_some_iff_digits.trans digits_unsigned_iff

theorem Digits.not_mem (h : Digits ds n) (hc : ¬c.isDigit) : c ∉ ds :=
  fun hmem => hc (h.digits c hmem)

theorem Denotes.dot_not_mem (h : Denotes cs n) : '.' ∉ cs := by
  cases h with
  | unsigned h => exact h.not_mem (by decide)
  | signed h => exact List.not_mem_cons_of_ne_of_not_mem (by decide) (h.not_mem (by decide))

end Numeral

/-! ## Numerals with dots between them -/

theorem splitAtChar_eq_splitOn (separator : Char) (s : List Char) :
    splitAtChar separator s = s.splitOn separator := by
  induction s with
  | nil => rfl
  | cons c s ih =>
    rw [splitAtChar, List.splitOn_cons_eq_if_modifyHead, ih]
    simp only [beq_iff_eq]
    split
    · rfl
    · cases h : s.splitOn separator with
      | nil => exact absurd h (List.splitOn_ne_nil separator s)
      | cons piece pieces => rfl

/-- The numbers that a text is read as: numerals, and a dot between each two of them. -/
theorem mapM_word?_splitAtChar {t : List Char} {ns : List Nat} :
    (splitAtChar '.' t).mapM Numeral.word? = some ns ↔
      ∃ pieces ≠ [], ['.'].intercalate pieces = t ∧ List.Forall₂ Numeral.Denotes pieces ns := by
  simp only [Checked.mapM_eq_some_iff, Numeral.word?_eq_some_iff, splitAtChar_eq_splitOn]
  constructor
  · intro h
    exact ⟨t.splitOn '.', List.splitOn_ne_nil '.' t, List.intercalate_splitOn '.', h⟩
  · rintro ⟨pieces, hne, rfl, h⟩
    -- so that splitting finds the dots between the numerals, and no others
    have hdot : ∀ piece ∈ pieces, '.' ∉ piece := fun piece hpiece =>
      let ⟨_, _, hn⟩ := Checked.exists_of_forall₂ h piece hpiece
      hn.dot_not_mem
    rwa [List.splitOn_intercalate '.' hdot hne]

/-- The texts `major`, `major.minor` and `major.minor.patch`, with the first two numbers. A minor
version that is not there is zero. -/
inductive VersionText : List Char → Nat → Nat → Prop
  | one {a : List Char} {major : Nat} (ha : Numeral.Denotes a major) : VersionText a major 0
  | two {a b : List Char} {major minor : Nat} (ha : Numeral.Denotes a major)
      (hb : Numeral.Denotes b minor) : VersionText (a ++ '.' :: b) major minor
  | three {a b c : List Char} {major minor patch : Nat} (ha : Numeral.Denotes a major)
    (hb : Numeral.Denotes b minor) (hc : Numeral.Denotes c patch) :
    VersionText (a ++ '.' :: (b ++ '.' :: c)) major minor

namespace VersionText

/-- The major and the minor version, if there are as many numbers as a version has. -/
def ofNumbers? : List Nat → Option (Nat × Nat)
  | [major] => some (major, 0)
  | [major, minor] => some (major, minor)
  | [major, minor, _] => some (major, minor)
  | _ => none

/-- The major and the minor version of a text. -/
def read? (t : List Char) : Option (Nat × Nat) :=
  (splitAtChar '.' t).mapM Numeral.word? >>= ofNumbers?

theorem read?_eq_some_iff {t : List Char} {major minor : Nat} :
    read? t = some (major, minor) ↔ VersionText t major minor := by
  simp only [read?, Option.bind_eq_bind, Option.bind_eq_some_iff, mapM_word?_splitAtChar]
  constructor
  · rintro ⟨ns, ⟨pieces, -, rfl, h⟩, hns⟩
    unfold ofNumbers? at hns
    split at hns
    · cases hns
      rcases h with _ | ⟨ha, _ | _⟩
      simpa using VersionText.one ha
    · cases hns
      rcases h with _ | ⟨ha, _ | ⟨hb, _ | _⟩⟩
      simpa using VersionText.two ha hb
    · cases hns
      rcases h with _ | ⟨ha, _ | ⟨hb, _ | ⟨hc, _ | _⟩⟩⟩
      simpa using VersionText.three ha hb hc
    · cases hns
  · intro h
    cases h with
    | one ha => exact ⟨[major], ⟨[t], List.cons_ne_nil _ _, by simp, .cons ha .nil⟩, rfl⟩
    | @two a b _ _ ha hb =>
      exact ⟨[major, minor], ⟨[a, b], List.cons_ne_nil _ _, by simp, .cons ha (.cons hb .nil)⟩, rfl⟩
    | @three a b c _ _ patch ha hb hc =>
      have hnumbers : List.Forall₂ Numeral.Denotes [a, b, c] [major, minor, patch] :=
        .cons ha (.cons hb (.cons hc .nil))
      exact ⟨[major, minor, patch], ⟨[a, b, c], List.cons_ne_nil _ _, by simp, hnumbers⟩, rfl⟩

/-- No text can be taken for two versions. -/
theorem unique {t : List Char} {major minor major' minor' : Nat} (h : VersionText t major minor)
    (h' : VersionText t major' minor') : major = major' ∧ minor = minor' := by
  have hread := (read?_eq_some_iff.2 h).symm.trans (read?_eq_some_iff.2 h')
  exact Prod.mk.inj (Option.some.inj hread)

end VersionText

/-! ## Generations of versions -/

namespace Generation

theorem parse_eq (text : String) :
    parse text =
      match VersionText.read? (Blank.trim text.toList) with
      | some (major, minor) => ofVersion major minor
      | none => .error (.malformed text) := by
  unfold parse VersionText.read?
  cases (splitAtChar '.' (Blank.trim text.toList)).mapM Numeral.word? with
  | none => rfl
  | some ns =>
    -- no number, one, two, three, and more than three
    rcases ns with _ | ⟨_, _ | ⟨_, _ | ⟨_, _ | _⟩⟩⟩ <;> rfl

theorem ofVersion_eq_ok_iff {major minor : Nat} {g : Generation} :
    ofVersion major minor = .ok g ↔ g.major = major := by
  rw [← ofMajor?_eq_some_iff, ofVersion]
  split <;> simp [*]

theorem ofVersion_eq_unsupported {major minor : Nat} (h : ¬(4 ≤ major ∧ major ≤ 8)) :
    ofVersion major minor = .error (.unsupported major minor) := by
  rw [ofVersion, ofMajor?_eq_none_iff.2 h]

theorem exists_major_eq {major : Nat} (h : 4 ≤ major ∧ major ≤ 8) :
    ∃ g : Generation, g.major = major := by
  cases hg : ofMajor? major with
  | none => exact absurd h (ofMajor?_eq_none_iff.1 hg)
  | some g => exact ⟨g, ofMajor?_eq_some_iff.1 hg⟩

/-- **A text is read as its grammar says.** Without the blanks at either end it is a version or it
is none. A version leads to the generation that has its major version, whatever stands behind that,
and is refused with its first two numbers if there is no such generation. All else is malformed, and
reported with its blanks. So no version is taken for one of a neighbouring generation. -/
theorem parse_by_grammar (text : String) :
    ∃ t, (∀ u, Blank.Trims text.toList u ↔ u = t) ∧
      (∀ major minor, VersionText t major minor →
        (4 ≤ major ∧ major ≤ 8 → ∃ g : Generation, g.major = major ∧ parse text = .ok g) ∧
        (¬(4 ≤ major ∧ major ≤ 8) → parse text = .error (.unsupported major minor))) ∧
      ((∀ major minor, ¬VersionText t major minor) → parse text = .error (.malformed text)) ∧
      ∀ g, parse text = .ok g → ∃ minor, VersionText t g.major minor := by
  refine ⟨Blank.trim text.toList, fun u => Blank.trims_iff, ?_, ?_, ?_⟩
  · intro major minor h
    have hparse : parse text = ofVersion major minor := by
      rw [parse_eq, VersionText.read?_eq_some_iff.2 h]
    constructor
    · intro hmajor
      obtain ⟨g, hg⟩ := exists_major_eq hmajor
      exact ⟨g, hg, hparse.trans (ofVersion_eq_ok_iff.2 hg)⟩
    · intro hmajor
      exact hparse.trans (ofVersion_eq_unsupported hmajor)
  · intro h
    have hnone : VersionText.read? (Blank.trim text.toList) = none := by
      refine Option.eq_none_iff_forall_ne_some.2 fun ⟨major, minor⟩ hread => ?_
      exact h major minor (VersionText.read?_eq_some_iff.1 hread)
    rw [parse_eq, hnone]
  · intro g hg
    rw [parse_eq] at hg
    split at hg
    · next major minor hread =>
      obtain rfl := ofVersion_eq_ok_iff.1 hg
      exact ⟨minor, VersionText.read?_eq_some_iff.1 hread⟩
    · cases hg

theorem padded_by_grammar :
    Blank.Trims "\u2003+08.00.1\n".toList "+08.00.1".toList ∧ VersionText "+08.00.1".toList 8 0 ∧
      parse "\u2003+08.00.1\n" = .ok .gen8 := by
  have htrims : Blank.Trims "\u2003+08.00.1\n".toList "+08.00.1".toList := by
    refine ⟨⟨['\u2003'], ['\n'], rfl, List.all_eq_true.1 rfl⟩, ?_, ?_⟩ <;> rintro _ ⟨⟩ <;> decide
  have hmajor : Numeral.Denotes ['+', '0', '8'] 8 :=
    .signed ⟨List.cons_ne_nil _ _, List.all_eq_true.1 rfl, rfl, by decide⟩
  have hminor : Numeral.Denotes ['0', '0'] 0 :=
    .unsigned ⟨List.cons_ne_nil _ _, List.all_eq_true.1 rfl, rfl, by decide⟩
  have hpatch : Numeral.Denotes ['1'] 1 :=
    .unsigned ⟨List.cons_ne_nil _ _, List.all_eq_true.1 rfl, rfl, by decide⟩
  have hversion : VersionText "+08.00.1".toList 8 0 := .three hmajor hminor hpatch
  obtain ⟨t, ht, hread, -⟩ := parse_by_grammar "\u2003+08.00.1\n"
  obtain rfl := (ht _).1 htrims
  obtain ⟨g, hg, hparse⟩ := (hread 8 0 hversion).1 (by decide)
  cases g <;> cases hg
  exact ⟨htrims, hversion, hparse⟩

/-- The numbers behind an unsupported major version have to be well formed, too. -/
example : parse "99.4294967296" = .error (.malformed "99.4294967296") := by decide +kernel

end Generation

end SyntaxArena
