import SyntaxArena.Proofs.SyntaxTree
import SyntaxArena.Proofs.TypeSpelling

/-!
# Reading a line

A line of an outline tells everything about its node but what it does not show: the type and the
location of a declaration, where `else` stands when there is none, and whether something is
returned.

- `Label.shown`: the part of a label that is shown.
- `Location.eq_of_text`, `SpeltInfo.eq_of_text`, `SpeltDecl.eq_of_nameText`: each field can be told
  from what stands behind it.
- `Label.shown_eq_of_line`: labels with the same line show the same.

Types have no quote in them, so the quote behind a type is the first. Names are any text, but there
is no quote behind the one that ends a name, so that quote is the last.
-/

namespace SyntaxArena

/-! ## Words, numbers and locations -/

namespace Splitting

variable {s t : List Char}

/-- One of several words ends in front of the first character that is in none of them. -/
theorem eq_of_word {α : Type} {f : α → String} {d : Char} (hinj : ∀ a b, f a = f b → a = b)
    (hword : ∀ a, d ∉ (f a).toList) {a b : α} (hs : ∀ c ∈ s.head?, c = d)
    (ht : ∀ c ∈ t.head?, c = d) (h : (f a).toList ++ s = (f b).toList ++ t) : a = b ∧ s = t := by
  obtain ⟨hab, hst⟩ := eq_of_first (p := (· = d)) (List.forall_mem_ne'.2 (hword a))
    (List.forall_mem_ne'.2 (hword b)) hs ht h
  exact ⟨hinj a b (String.toList_inj.1 hab), hst⟩

/-- A word that is there only if something holds is seen where nothing else begins like it. -/
theorem eq_of_flag {w : String} {a b : Bool} (hs : ¬w.toList <+: s) (ht : ¬w.toList <+: t)
    (h : (if a then w else "").toList ++ s = (if b then w else "").toList ++ t) :
    a = b ∧ s = t := by
  cases a with
  | false =>
    cases b with
    | false => exact ⟨rfl, by simpa using h⟩
    | true => exact absurd ⟨t, by simpa using h.symm⟩ hs
  | true =>
    cases b with
    | false => exact absurd ⟨s, by simpa using h⟩ ht
    | true => exact ⟨rfl, by simpa using h⟩

theorem repr_ne_nil (n : Nat) : n.repr.toList ≠ [] := by
  rw [Nat.toList_repr]
  exact Nat.toDigits_ne_nil

theorem isDigit_repr {n : Nat} {c : Char} (h : c ∈ n.repr.toList) : c.isDigit := by
  rw [Nat.toList_repr] at h
  exact Nat.isDigit_of_mem_toDigits (by decide) (by decide) h

/-- A number ends in front of the first character that is no digit. -/
theorem eq_of_repr {m n : Nat} (hs : ∀ c ∈ s.head?, ¬c.isDigit) (ht : ∀ c ∈ t.head?, ¬c.isDigit)
    (h : m.repr.toList ++ s = n.repr.toList ++ t) : m = n ∧ s = t := by
  have hdigit (n : Nat) : ∀ c ∈ n.repr.toList, ¬¬c.isDigit :=
    fun c hc => not_not_intro (isDigit_repr hc)
  obtain ⟨hmn, hst⟩ := eq_of_first (hdigit m) (hdigit n) hs ht h
  rw [Nat.toList_repr, Nat.toList_repr] at hmn
  have hvalue := congrArg (fun ds => Nat.ofDigitChars 10 ds 0) hmn
  exact ⟨by simpa [Nat.ofDigitChars_ten_toDigits] using hvalue, hst⟩

end Splitting

namespace Location

variable {s t : List Char}

theorem eq_of_text {l m : Location} (hs : ∀ c ∈ s.head?, ¬c.isDigit)
    (ht : ∀ c ∈ t.head?, ¬c.isDigit) (h : l.text.toList ++ s = m.text.toList ++ t) :
    l = m ∧ s = t := by
  obtain ⟨_ | a⟩ := l <;> obtain ⟨_ | b⟩ := m <;>
    simp only [text, String.toList_append, List.append_assoc] at h
  · exact ⟨rfl, List.append_cancel_left h⟩
  · simp at h
  · simp at h
  · obtain ⟨hab, hst⟩ := Splitting.eq_of_repr hs ht (List.append_cancel_left h)
    exact ⟨by rw [Fin.ext hab], hst⟩

/-- Locations are shown by digits and by words without quotes. -/
theorem not_mem_text {q : Char} (hq : q = '\'' ∨ q = '\n') (l : Location) : q ∉ l.text.toList := by
  intro h
  obtain ⟨_ | a⟩ := l
  · rcases hq with rfl | rfl <;> simp [text] at h
  · rw [text, String.toList_append, List.mem_append] at h
    rcases h with h | h
    · rcases hq with rfl | rfl <;> simp at h
    · have h := Splitting.isDigit_repr h
      rcases hq with rfl | rfl <;> cases h

theorem head_text (l : Location) : ∃ s, l.text.toList = '@' :: s ∨ l.text.toList = '<' :: s := by
  obtain ⟨_ | a⟩ := l
  · exact ⟨_, .inr rfl⟩
  · exact ⟨a.val.repr.toList, .inl (by simp [text])⟩

theorem eq_of_toList_text {l m : Location} (h : l.text.toList = m.text.toList) : l = m :=
  (eq_of_text (s := []) (t := []) (by simp) (by simp) (by simpa using h)).1

end Location

/-! ## Attributes and names -/

/-- The declaration as far as its name goes. -/
def SpeltDecl.shown (d : SpeltDecl) : SpeltDecl where
  name := d.name
  type := ""
  loc := .invalid

theorem ValueKind.name_injective {v w : ValueKind} (h : v.name = w.name) : v = w := by
  revert h
  cases v <;> cases w <;> decide

/-- What stands behind the attributes of an expression: a space, and no second category. -/
def BehindInfo (s : List Char) : Prop := ∃ c r, s = ' ' :: c :: r ∧ c ≠ 'b' ∧ c ≠ 'v'

/-- The second category is seen from the letter behind the space. -/
theorem ObjectKind.eq_of_text {o o' : ObjectKind} {s t : List Char} (hs : BehindInfo s)
    (ht : BehindInfo t) (h : (if o = .ordinary then "" else " " ++ o.name).toList ++ s =
      (if o' = .ordinary then "" else " " ++ o'.name).toList ++ t) : o = o' ∧ s = t := by
  obtain ⟨c, r, rfl, hc⟩ := hs
  obtain ⟨d, r', rfl, hd⟩ := ht
  cases o <;> cases o' <;> simp [name] at h ⊢ <;> grind

/-- The attributes of an expression can be told from what stands behind them. -/
theorem SpeltInfo.eq_of_text {i j : SpeltInfo} {s t : List Char} (hi : '\'' ∉ i.type.toList)
    (hj : '\'' ∉ j.type.toList) (hs : BehindInfo s) (ht : BehindInfo t)
    (h : i.text.toList ++ s = j.text.toList ++ t) : i = j ∧ s = t := by
  have hspace {o : ObjectKind} {s : List Char} (hs : BehindInfo s) :
      ∀ c ∈ ((if o = .ordinary then "" else " " ++ o.name).toList ++ s).head?, c = ' ' := by
    obtain ⟨c, r, rfl, -⟩ := hs
    split <;> simp
  obtain ⟨type, value, object⟩ := i
  obtain ⟨type', value', object'⟩ := j
  simp only [text, String.toList_append, List.append_assoc] at h
  obtain ⟨htype, hvalue⟩ := Splitting.eq_of_first (p := (· = '\'')) (List.forall_mem_ne'.2 hi)
    (List.forall_mem_ne'.2 hj) (by simp) (by simp) (List.append_cancel_left h)
  obtain ⟨rfl, hobject⟩ := Splitting.eq_of_word (d := ' ') (fun _ _ => ValueKind.name_injective)
    (fun v => by cases v <;> decide) (hspace hs) (hspace ht) (List.append_cancel_left hvalue)
  obtain ⟨rfl, hst⟩ := ObjectKind.eq_of_text hs ht hobject
  obtain rfl := String.toList_inj.1 htype
  exact ⟨rfl, hst⟩

namespace SpeltDecl

variable {s t : List Char}

/-- The quote that ends a name is the last, if no other stands behind it. -/
theorem eq_of_nameText {d e : SpeltDecl} (hs : '\'' ∉ s) (ht : '\'' ∉ t)
    (h : d.nameText.toList ++ s = e.nameText.toList ++ t) : d.shown = e.shown ∧ s = t := by
  have h : (" '".toList ++ d.name.toList) ++ '\'' :: s =
      (" '".toList ++ e.name.toList) ++ '\'' :: t := by
    simpa [nameText] using h
  obtain ⟨hname, -, hst⟩ := Splitting.eq_of_last (p := (· = '\'')) rfl rfl
    (List.forall_mem_ne'.2 hs) (List.forall_mem_ne'.2 ht) h
  rw [shown, shown, String.toList_inj.1 (List.append_cancel_left hname)]
  exact ⟨rfl, hst⟩

/-- Whether there is a name is seen from the quotes. -/
theorem eq_of_optionalNameText {word : String} {d e : Option SpeltDecl} 
    (hs : '\'' ∉ s) (ht : '\'' ∉ t)
    (h : (optionalNameText word d).toList ++ s = (optionalNameText word e).toList ++ t) :
    d.map shown = e.map shown ∧ s = t := by
  have hquote (d : SpeltDecl) (s : List Char) :
      '\'' ∈ (optionalNameText word (some d)).toList ++ s := by
    simp [optionalNameText, nameText]
  cases d with
  | none =>
    cases e with
    | none => exact ⟨rfl, by simpa [optionalNameText] using h⟩
    | some e => exact absurd (h ▸ hquote e t) (by simpa [optionalNameText] using hs)
  | some d =>
    cases e with
    | none => exact absurd (h ▸ hquote d s) (by simpa [optionalNameText] using ht)
    | some e =>
      simp only [optionalNameText, String.toList_append, List.append_assoc] at h
      obtain ⟨hname, hst⟩ :=
        eq_of_nameText hs ht (List.append_cancel_left (List.append_cancel_left h))
      exact ⟨congrArg some hname, hst⟩

end SpeltDecl

/-! ## Labels -/

namespace Label

/-- The label as far as its line shows it. That something is returned is only seen from the line
below. -/
def shown : Label → Label
  | .declRef decl info loc => .declRef decl.shown info loc
  | .ifStmt ifLoc isConstexpr hasInit condVar elseLoc hasElse =>
    .ifStmt ifLoc isConstexpr hasInit (condVar.map SpeltDecl.shown)
      (if hasElse then elseLoc else .invalid) hasElse
  | .whileStmt condVar whileLoc => .whileStmt (condVar.map SpeltDecl.shown) whileLoc
  | .returnStmt returnLoc _ nrvoCandidate =>
    .returnStmt returnLoc false (nrvoCandidate.map SpeltDecl.shown)
  | l => l

/-- The attributes of an expression, `none` for statements. -/
def info? : Label → Option SpeltInfo
  | .integerLiteral _ info _ => some info
  | .declRef _ info _ => some info
  | .unary _ info _ _ => some info
  | .binary _ info _ _ => some info
  | .call info _ => some info
  | .ifStmt .. | .whileStmt .. | .returnStmt .. | .compound .. | .nullStmt .. => none

/-- The declaration that the node mentions. -/
def decl? : Label → Option SpeltDecl
  | .declRef decl _ _ => some decl
  | .ifStmt _ _ _ condVar _ _ => condVar
  | .whileStmt condVar _ => condVar
  | .returnStmt _ _ nrvoCandidate => nrvoCandidate
  | .integerLiteral .. | .unary .. | .binary .. | .call .. | .compound .. | .nullStmt .. => none

variable {l m : Label}

/-- The details of an expression begin with a space, and go on with a digit, a quote, the side of an
operator or a location. -/
theorem behindInfo_detailText {i : SpeltInfo} (h : l.info? = some i) :
    BehindInfo l.detailText.toList := by
  have hloc (loc : Location) : BehindInfo (' ' :: loc.text.toList) := by
    obtain ⟨r, h | h⟩ := loc.head_text <;> exact ⟨_, r, by rw [h], by decide⟩
  cases l with
  | integerLiteral value info loc =>
    obtain ⟨c, r, hr⟩ := List.exists_cons_of_ne_nil (Splitting.repr_ne_nil value.toNat)
    have hc : c.isDigit := Splitting.isDigit_repr (hr ▸ List.mem_cons_self)
    refine ⟨c, r ++ ' ' :: loc.text.toList, by simp [detailText, hr], ?_, ?_⟩ <;>
      rintro rfl <;> cases hc
  | declRef decl info loc =>
    exact ⟨'\'', _, by simp [detailText, SpeltDecl.nameText]; rfl, by decide⟩
  | unary op info opLoc canOverflow =>
    cases h : op.isPostfix <;> exact ⟨'p', _, by simp [detailText, h]; rfl, by decide⟩
  | binary op info opLoc fpOptions => exact ⟨'\'', _, by simp [detailText]; rfl, by decide⟩
  | call info rparenLoc => simpa [detailText] using hloc rparenLoc
  | _ => cases h

theorem head_detailText (l : Label) : ∃ r, l.detailText.toList = ' ' :: r := by
  cases hinfo : l.info? with
  | some i =>
    obtain ⟨c, r, h, -⟩ := behindInfo_detailText hinfo
    exact ⟨c :: r, h⟩
  | none =>
    cases l with
    | ifStmt | whileStmt | returnStmt | compound | nullStmt => exact ⟨_, by simp [detailText]; rfl⟩
    | _ => cases hinfo

theorem infoText_of_some {i : SpeltInfo} (h : l.info? = some i) : l.infoText = i.text := by
  cases l <;> simp_all [info?, infoText]

theorem infoText_of_none (h : l.info? = none) : l.infoText = "" := by
  cases l <;> simp_all [info?, infoText]

theorem isSome_info? (l : Label) : l.info?.isSome = l.kind.isExpr := by
  cases l <;> rfl

/-- Behind the name of the kind there is a space. -/
theorem head_info_detail (l : Label) :
    ∀ c ∈ (l.infoText.toList ++ l.detailText.toList).head?, c = ' ' := by
  cases h : l.info? with
  | some i =>
    rw [infoText_of_some h]
    simp [SpeltInfo.text]
  | none =>
    obtain ⟨r, hr⟩ := l.head_detailText
    rw [infoText_of_none h]
    simp [hr]

/-- A line tells the kind, the attributes and the details from each other. -/
theorem eq_of_line (hl : ∀ i ∈ l.info?, '\'' ∉ i.type.toList)
    (hm : ∀ i ∈ m.info?, '\'' ∉ i.type.toList)
    (h : l.line = m.line) : l.kind = m.kind ∧ l.info? = m.info? ∧ l.detailText = m.detailText := by
  have h := congrArg String.toList h
  simp only [line, String.toList_append, List.append_assoc] at h
  obtain ⟨hkind, hrest⟩ := Splitting.eq_of_word (d := ' ') (fun _ _ => NodeKind.name_injective)
    (fun k => by cases k <;> decide) l.head_info_detail m.head_info_detail h
  -- both are expressions, or both statements
  have hexpr : l.info?.isSome = m.info?.isSome := by rw [isSome_info?, isSome_info?, hkind]
  cases hi : l.info? with
  | none =>
    rw [hi] at hexpr
    have hj : m.info? = none := by simpa using hexpr.symm
    rw [infoText_of_none hi, infoText_of_none hj] at hrest
    exact ⟨hkind, hj.symm, String.toList_inj.1 hrest⟩
  | some i =>
    rw [hi] at hexpr
    obtain ⟨j, hj⟩ := Option.isSome_iff_exists.1 hexpr.symm
    rw [infoText_of_some hi, infoText_of_some hj] at hrest
    obtain ⟨rfl, hdetail⟩ := SpeltInfo.eq_of_text (hl i hi) (hm j hj) (behindInfo_detailText hi)
      (behindInfo_detailText hj) hrest
    exact ⟨hkind, hj.symm, String.toList_inj.1 hdetail⟩

/-! ## Details -/

/-- The side of a unary operator is seen from the second letter. -/
theorem eq_of_sideText {a b : Bool} {s t : List Char}
    (h : (if a then " postfix '" else " prefix '").toList ++ s =
      (if b then " postfix '" else " prefix '").toList ++ t) : a = b ∧ s = t := by
  cases a <;> cases b <;> simp at h ⊢ <;> exact h

/-- Behind the sign that an operator cannot overflow there is its location. -/
theorem eq_of_overflowText {a b : Bool} {l m : Location}
    (h : (if a then "" else " cannot overflow").toList ++ (" ".toList ++ l.text.toList) =
      (if b then "" else " cannot overflow").toList ++ (" ".toList ++ m.text.toList)) :
    a = b ∧ l = m := by
  have hl := l.head_text
  have hm := m.head_text
  cases a <;> cases b <;> simp at h ⊢
  · exact Location.eq_of_toList_text h
  · obtain ⟨r, hr | hr⟩ := hm <;> simp [hr] at h
  · obtain ⟨r, hr | hr⟩ := hl <;> simp [hr] at h
  · exact Location.eq_of_toList_text h

theorem shown_eq_unary {op op' : UnaryOp} {info : SpeltInfo} {opLoc opLoc' : Location}
    {canOverflow canOverflow' : Bool}
    (h : (unary op info opLoc canOverflow).detailText =
      (unary op' info opLoc' canOverflow').detailText) :
    (unary op info opLoc canOverflow).shown = (unary op' info opLoc' canOverflow').shown := by
  have hquote (op : UnaryOp) : '\'' ∉ op.symbol.toList := by cases op <;> decide
  have h := congrArg String.toList h
  simp only [detailText, String.toList_append, List.append_assoc] at h
  obtain ⟨hside, hsymbol⟩ := eq_of_sideText h
  obtain ⟨hop, hrest⟩ := Splitting.eq_of_first (p := (· = '\'')) (List.forall_mem_ne'.2 (hquote op))
    (List.forall_mem_ne'.2 (hquote op')) (by simp) (by simp) hsymbol
  obtain ⟨rfl, rfl⟩ := eq_of_overflowText (List.append_cancel_left hrest)
  rw [UnaryOp.eq_of_symbol_eq (String.toList_inj.1 hop) hside]

/-- A location with a name behind it, if there is one. -/
theorem eq_of_loc_name {loc loc' : Location} {word : String} {d e : Option SpeltDecl}
    (h : (" " ++ loc.text ++ SpeltDecl.optionalNameText word d).toList =
      (" " ++ loc'.text ++ SpeltDecl.optionalNameText word e).toList) :
    loc = loc' ∧ d.map SpeltDecl.shown = e.map SpeltDecl.shown := by
  have hdigit (d : Option SpeltDecl) :
      ∀ c ∈ (SpeltDecl.optionalNameText word d).toList.head?, ¬c.isDigit := by
    cases d <;> simp [SpeltDecl.optionalNameText]
  simp only [String.toList_append, List.append_assoc] at h
  obtain ⟨hloc, hname⟩ := Location.eq_of_text (hdigit d) (hdigit e) (List.append_cancel_left h)
  obtain ⟨hde, -⟩ := SpeltDecl.eq_of_optionalNameText (s := []) (t := []) (by simp) (by simp)
    (by simpa using hname)
  exact ⟨hloc, hde⟩

/-- What the line of an `if` statement says of its `else`. -/
def elseText (hasElse : Bool) (elseLoc : Location) : String :=
  if hasElse then " has_else " ++ elseLoc.text else ""

theorem toList_detailText_ifStmt (ifLoc : Location) (isConstexpr hasInit : Bool)
    (condVar : Option SpeltDecl) (elseLoc : Location) (hasElse : Bool) :
    (ifStmt ifLoc isConstexpr hasInit condVar elseLoc hasElse).detailText.toList =
      " ".toList ++ (ifLoc.text.toList ++ ((if isConstexpr then " constexpr" else "").toList ++
        ((if hasInit then " has_init" else "").toList ++
          ((SpeltDecl.optionalNameText "has_var" condVar).toList ++
            (elseText hasElse elseLoc).toList)))) := by
  simp only [detailText, elseText, String.toList_append, List.append_assoc]

/-- The details of an `if` statement, read from the left up to the name, which ends at the last
quote. -/
theorem shown_eq_ifStmt {ifLoc ifLoc' elseLoc elseLoc' : Location}
    {isConstexpr isConstexpr' hasInit hasInit' hasElse hasElse' : Bool}
    {condVar condVar' : Option SpeltDecl}
    (h : (ifStmt ifLoc isConstexpr hasInit condVar elseLoc hasElse).detailText
      = (ifStmt ifLoc' isConstexpr' hasInit' condVar' elseLoc' hasElse').detailText) :
    (ifStmt ifLoc isConstexpr hasInit condVar elseLoc hasElse).shown
      = (ifStmt ifLoc' isConstexpr' hasInit' condVar' elseLoc' hasElse').shown := by
  -- none of the words can be taken for one that may stand behind it, whichever of those are there
  have hinit (d : Option SpeltDecl) (e : Bool) (l : Location) :
      ¬" has_init".toList <+:
        (SpeltDecl.optionalNameText "has_var" d).toList ++ (elseText e l).toList := by
    cases d <;> cases e <;> simp [SpeltDecl.optionalNameText, elseText]
  have hconstexpr (b : Bool) (d : Option SpeltDecl) (e : Bool) (l : Location) :
      ¬" constexpr".toList <+: (if b then " has_init" else "").toList ++
        ((SpeltDecl.optionalNameText "has_var" d).toList ++ (elseText e l).toList) := by
    cases b <;> cases d <;> cases e <;> simp [SpeltDecl.optionalNameText, elseText]
  have hdigit (a b : Bool) (d : Option SpeltDecl) (e : Bool) (l : Location) :
      ∀ c ∈ ((if a then " constexpr" else "").toList ++ ((if b then " has_init" else "").toList ++
        ((SpeltDecl.optionalNameText "has_var" d).toList ++ (elseText e l).toList))).head?,
        ¬c.isDigit := by
    cases a <;> cases b <;> cases d <;> cases e <;> simp [SpeltDecl.optionalNameText, elseText]
  -- a name may have these words in it, and quotes, but behind it there is no quote
  have hquote (e : Bool) (l : Location) : '\'' ∉ (elseText e l).toList := by
    cases e <;> simp [elseText, l.not_mem_text]
  have htext := congrArg String.toList h
  rw [toList_detailText_ifStmt, toList_detailText_ifStmt] at htext
  obtain ⟨rfl, hwords⟩ := Location.eq_of_text (hdigit _ _ _ _ _) (hdigit _ _ _ _ _)
    (List.append_cancel_left htext)
  obtain ⟨rfl, hbehind⟩ := Splitting.eq_of_flag (hconstexpr _ _ _ _) (hconstexpr _ _ _ _) hwords
  obtain ⟨rfl, hname⟩ := Splitting.eq_of_flag (hinit _ _ _) (hinit _ _ _) hbehind
  obtain ⟨hvar, helse⟩ := SpeltDecl.eq_of_optionalNameText (hquote _ _) (hquote _ _) hname
  cases hasElse <;> cases hasElse' <;> simp [elseText, shown, hvar] at helse ⊢
  exact Location.eq_of_toList_text helse

/-- Of labels of one kind, the details tell everything that is shown but the attributes. -/
theorem shown_eq (hkind : l.kind = m.kind) (hinfo : l.info? = m.info?)
    (h : l.detailText = m.detailText) : l.shown = m.shown := by
  have htext := congrArg String.toList h
  cases l with
  | integerLiteral value info loc =>
    cases m with
    | integerLiteral value' info' loc' =>
      simp only [detailText, String.toList_append, List.append_assoc] at htext
      obtain ⟨hvalue, hloc⟩ :=
        Splitting.eq_of_repr (by simp) (by simp) (List.append_cancel_left htext)
      obtain rfl := Option.some.inj hinfo
      rw [UInt64.toNat_inj.1 hvalue, Location.eq_of_toList_text (List.append_cancel_left hloc)]
    | _ => cases hkind
  | declRef decl info loc =>
    cases m with
    | declRef decl' info' loc' =>
      simp only [detailText, String.toList_append, List.append_assoc] at htext
      obtain ⟨hname, hloc⟩ := SpeltDecl.eq_of_nameText (by simp [Location.not_mem_text])
        (by simp [Location.not_mem_text]) htext
      obtain rfl := Option.some.inj hinfo
      rw [shown, shown, hname, Location.eq_of_toList_text (List.append_cancel_left hloc)]
    | _ => cases hkind
  | unary op info opLoc canOverflow =>
    cases m with
    | unary op' info' opLoc' canOverflow' =>
      obtain rfl := Option.some.inj hinfo
      exact shown_eq_unary h
    | _ => cases hkind
  | binary op info opLoc fpOptions =>
    cases m with
    | binary op' info' opLoc' fpOptions' =>
      simp only [detailText, String.toList_append, List.append_assoc] at htext
      obtain ⟨rfl, hrest⟩ := Splitting.eq_of_word (d := '\'') (fun _ _ => BinaryOp.symbol_injective)
        (fun op => by cases op <;> decide) (by simp) (by simp) (List.append_cancel_left htext)
      obtain ⟨rfl, hloc⟩ := Splitting.eq_of_word (d := ' ') (fun _ _ => FpOptions.text_injective)
        (fun ⟨o⟩ => by cases o <;> decide) (by simp) (by simp) (List.append_cancel_left hrest)
      obtain rfl := Option.some.inj hinfo
      rw [Location.eq_of_toList_text (List.append_cancel_left hloc)]
    | _ => cases hkind
  | call info rparenLoc =>
    cases m with
    | call info' rparenLoc' =>
      simp only [detailText, String.toList_append] at htext
      obtain rfl := Option.some.inj hinfo
      rw [Location.eq_of_toList_text (List.append_cancel_left htext)]
    | _ => cases hkind
  | ifStmt ifLoc isConstexpr hasInit condVar elseLoc hasElse =>
    cases m with
    | ifStmt ifLoc' isConstexpr' hasInit' condVar' elseLoc' hasElse' => exact shown_eq_ifStmt h
    | _ => cases hkind
  | whileStmt condVar whileLoc =>
    cases m with
    | whileStmt condVar' whileLoc' =>
      obtain ⟨rfl, hvar⟩ := eq_of_loc_name htext
      rw [shown, shown, hvar]
    | _ => cases hkind
  | returnStmt returnLoc hasValue nrvoCandidate =>
    cases m with
    | returnStmt returnLoc' hasValue' nrvoCandidate' =>
      obtain ⟨rfl, hcandidate⟩ := eq_of_loc_name htext
      rw [shown, shown, hcandidate]
    | _ => cases hkind
  | compound lbraceLoc rbraceLoc =>
    cases m with
    | compound lbraceLoc' rbraceLoc' =>
      simp only [detailText, Span.text, String.toList_append, List.append_assoc] at htext
      obtain ⟨rfl, hstop⟩ := Location.eq_of_text (by simp) (by simp)
        (List.append_cancel_left (List.append_cancel_left htext))
      obtain ⟨rfl, -⟩ := Location.eq_of_text (by simp) (by simp) (List.append_cancel_left hstop)
      rfl
    | _ => cases hkind
  | nullStmt semiLoc =>
    cases m with
    | nullStmt semiLoc' =>
      simp only [detailText, String.toList_append] at htext
      rw [Location.eq_of_toList_text (List.append_cancel_left htext)]
    | _ => cases hkind

/-! ## Lines -/

/-- The types that a label mentions are spelt with the characters of types, and the name has no line
break. -/
structure Clear (l : Label) : Prop where
  type : ∀ i ∈ l.info?, ∀ c ∈ i.type.toList, isTypeChar c
  name : ∀ d ∈ l.decl?, '\n' ∉ d.name.toList

theorem Clear.not_mem_type (h : l.Clear) {c : Char} (hc : ¬isTypeChar c) :
    ∀ i ∈ l.info?, c ∉ i.type.toList :=
  fun i hi hmem => hc (h.type i hi c hmem)

/-- Labels with the same line show the same. -/
theorem shown_eq_of_line (hl : l.Clear) (hm : m.Clear) (h : l.line = m.line) :
    l.shown = m.shown := by
  have hquote : ¬isTypeChar '\'' := by decide
  obtain ⟨hkind, hinfo, hdetail⟩ := eq_of_line (hl.not_mem_type hquote) (hm.not_mem_type hquote) h
  exact shown_eq hkind hinfo hdetail

/-- The line of a label is that of what is shown of it. -/
theorem line_shown (l : Label) : l.shown.line = l.line := by
  have hname {word : String} (d : Option SpeltDecl) :
      SpeltDecl.optionalNameText word (d.map SpeltDecl.shown) =
        SpeltDecl.optionalNameText word d := by
    cases d <;> rfl
  cases l with
  | ifStmt ifLoc isConstexpr hasInit condVar elseLoc hasElse =>
    cases hasElse <;> simp [line, shown, kind, infoText, detailText, hname]
  | whileStmt condVar whileLoc => simp [line, shown, kind, infoText, detailText, hname]
  | returnStmt returnLoc hasValue nrvoCandidate =>
    simp [line, shown, kind, infoText, detailText, hname]
  | _ => rfl

theorem not_mem_infoText (h : l.Clear) : '\n' ∉ l.infoText.toList := by
  cases hi : l.info? with
  | none => simp [infoText_of_none hi]
  | some i =>
    have htype := h.not_mem_type (c := '\n') (by decide) i hi
    rw [infoText_of_some hi, SpeltInfo.text]
    cases i.valueKind <;> cases i.objectKind <;> simp [htype, ValueKind.name, ObjectKind.name]

theorem not_mem_detailText (h : l.Clear) : '\n' ∉ l.detailText.toList := by
  have hloc (l : Location) : '\n' ∉ l.text.toList := l.not_mem_text (.inr rfl)
  have hname {d : SpeltDecl} (hd : d ∈ l.decl?) : '\n' ∉ d.nameText.toList := by
    simp [SpeltDecl.nameText, h.name d hd]
  have hoptional (word : String) (hword : '\n' ∉ word.toList) (d : Option SpeltDecl)
      (hd : d = l.decl?) : '\n' ∉ (SpeltDecl.optionalNameText word d).toList := by
    cases d with
    | none => simp [SpeltDecl.optionalNameText]
    | some d => simp [SpeltDecl.optionalNameText, hword, hname hd.symm]
  cases l with
  | integerLiteral value info loc =>
    have hvalue : '\n' ∉ value.toNat.repr.toList := fun h => by cases Splitting.isDigit_repr h
    simpa [detailText, hloc] using hvalue
  | declRef decl info loc => simp [detailText, hloc, hname (d := decl) rfl]
  | unary op info opLoc canOverflow =>
    have hop : '\n' ∉ op.symbol.toList := by cases op <;> decide
    cases hside : op.isPostfix <;> cases canOverflow <;> simp [detailText, hloc, hop, hside]
  | binary op info opLoc fpOptions =>
    have hop : '\n' ∉ op.symbol.toList := by cases op <;> decide
    have hfp : '\n' ∉ fpOptions.text.toList := by obtain ⟨o⟩ := fpOptions; cases o <;> decide
    simp [detailText, hloc, hop, hfp]
  | ifStmt ifLoc isConstexpr hasInit condVar elseLoc hasElse =>
    have hvar := hoptional "has_var" (by decide) condVar rfl
    cases isConstexpr <;> cases hasInit <;> cases hasElse <;> simp [detailText, hloc, hvar]
  | whileStmt condVar whileLoc =>
    simp [detailText, hloc, hoptional "has_var" (by decide) condVar rfl]
  | returnStmt returnLoc hasValue nrvoCandidate =>
    simp [detailText, hloc, hoptional "nrvo_candidate" (by decide) nrvoCandidate rfl]
  | call | compound | nullStmt => simp [detailText, Span.text, hloc]

theorem not_mem_line (h : l.Clear) : '\n' ∉ l.line.toList := by
  have hkind : '\n' ∉ l.kind.name.toList := by cases l.kind <;> decide
  simp [line, hkind, not_mem_infoText h, not_mem_detailText h]

/-- A line does not begin with a space. -/
theorem head_line (l : Label) : ∀ c ∈ l.line.toList.head?, c ≠ ' ' := by
  rw [line]
  cases l.kind <;> simp [NodeKind.name]

end Label

end SyntaxArena
