import SyntaxArena.Proofs.EventLog
import SyntaxArena.Proofs.RequestComparison

/-!
# What was built reads back

Whichever way a node is built, nothing gets lost and nothing is made up: the node at the handle says
what the arguments said, and where the arguments say nothing it has the canonical default. It says
so for as long as the arena is not reset, however much is stored behind it. The one thing that
building asks for is room: as long as 32 bits are enough for the new handle and for the segment of
the list that was passed, nothing can go wrong.

- `Attribute`: what a node can say of itself, with `Attribute.isDefault` for the canonical defaults.
- `Blueprint.attributes`: all that a node says.
- `Construction.supplied`, `Request.supplied`: what the arguments say.
- `NodeStore.hasRoomFor_iff`: there is room exactly if the handle and the segment of a new node fit
  into 32 bits.
- `NodeStore.ReadsBack`: what stands at a handle says what was supplied, and only defaults besides.
- `NodeStore.readsBack_of_extends`: what a blueprint was built into reads back as the blueprint.
- `Arena.constructed_reads_back`: where there is room, every way of building nodes succeeds, and its
  node reads back.
-/

namespace SyntaxArena

/-! ## Attributes -/

/-- The parts of the text that a node keeps a location of. -/
inductive Landmark where
  /-- A literal or a reference as a whole. -/
  | self
  | operator | rparen | ifWord | elseWord | whileWord | returnWord | lbrace | rbrace | semicolon
deriving DecidableEq

/-- Something that a node says of itself. -/
inductive Attribute where
  | value (value : UInt64)
  | decl (decl : VarDecl)
  | unaryOp (op : UnaryOp)
  | binaryOp (op : BinaryOp)
  | type (type : QualType)
  | valueKind (kind : ValueKind)
  | objectKind (kind : ObjectKind)
  | canOverflow (flag : Bool)
  | fpOptions (options : FpOptions)
  | isConstexpr (flag : Bool)
  | condVar (decl : Option VarDecl)
  | nrvoCandidate (decl : Option VarDecl)
  | loc (landmark : Landmark) (loc : Location)
  | operand (id : ExprId)
  | lhs (id : ExprId)
  | rhs (id : ExprId)
  | callee (id : ExprId)
  | args (ids : List ExprId)
  | init (id : Option StmtId)
  | cond (id : ExprId)
  | thenBranch (id : StmtId)
  | elseBranch (id : Option StmtId)
  | body (id : StmtId)
  | returned (id : Option ExprId)
  | stmts (ids : List StmtId)
deriving DecidableEq

/-- Whether the attribute has its canonical default: an ordinary prvalue, no overflow, no
contraction, no location and no optional part. The other attributes have no default. -/
def Attribute.isDefault : Attribute → Bool
  | .valueKind k => k = .prvalue
  | .objectKind k => k = .ordinary
  | .canOverflow flag => !flag
  | .fpOptions o => o.contract = .off
  | .isConstexpr flag => !flag
  | .condVar d => d.isNone
  | .nrvoCandidate d => d.isNone
  | .loc _ l => l.offset?.isNone
  | .init id => id.isNone
  | .elseBranch id => id.isNone
  | _ => false

/-- What an expression says of its type and categories. -/
def ExprInfo.attributes (i : ExprInfo) : List Attribute :=
  [.type i.type, .valueKind i.valueKind, .objectKind i.objectKind]

/-- All that a node says of itself, each attribute once. -/
def Blueprint.attributes : Blueprint → List Attribute
  | .integerLiteral n => [.value n.value, .loc .self n.loc] ++ n.info.attributes
  | .declRef n => [.decl n.decl, .loc .self n.loc] ++ n.info.attributes
  | .unary n =>
    [.unaryOp n.op, .operand n.operand, .loc .operator n.opLoc, .canOverflow n.canOverflow]
      ++ n.info.attributes
  | .binary n =>
    [.binaryOp n.op, .lhs n.lhs, .rhs n.rhs, .loc .operator n.opLoc, .fpOptions n.fpOptions]
      ++ n.info.attributes
  | .call n => [.callee n.callee, .args n.args, .loc .rparen n.rparenLoc] ++ n.info.attributes
  | .ifStmt n =>
    [.loc .ifWord n.ifLoc, .isConstexpr n.isConstexpr, .init n.init, .condVar n.condVar,
      .cond n.cond, .thenBranch n.thenBranch, .loc .elseWord n.elseLoc, .elseBranch n.elseBranch]
  | .whileStmt n => [.condVar n.condVar, .cond n.cond, .body n.body, .loc .whileWord n.whileLoc]
  | .returnStmt n =>
    [.loc .returnWord n.returnLoc, .returned n.value, .nrvoCandidate n.nrvoCandidate]
  | .compound n => [.stmts n.body, .loc .lbrace n.lbraceLoc, .loc .rbrace n.rbraceLoc]
  | .nullStmt n => [.loc .semicolon n.semiLoc]

/-! ## What the arguments say -/

namespace Construction

/-- The kind of the node that is built. -/
def kind : Construction → NodeKind
  | .integerLiteral .. => .integerLiteral
  | .declRef .. => .declRef
  | .nullStmt .. => .nullStmt
  | .unary .. | .unaryWithOverflow .. => .unary
  | .binaryContractable .. | .binaryOptions .. => .binary
  | .ifPlacement .. | .ifFactory .. => .ifStmt
  | .whilePlacement .. | .whileFactory .. => .whileStmt
  | .returnPlacement .. | .returnFactory .. => .returnStmt
  | .compoundPlacement .. | .compoundFactory .. => .compound
  | .callPlacement .. | .callFactory .. => .call

/-- What the flag of a binary operator says of contraction. -/
def contraction : Bool → FpContract
  | false => .off
  | true => .on

/-- The arguments as attributes of the node. A reference has the type of its declaration, and the
flag of a binary operator stands for floating-point options. -/
def supplied : Construction → List Attribute
  | .integerLiteral value type loc => [.value value, .type type, .loc .self loc]
  | .declRef decl valueKind loc =>
    [.decl decl, .type decl.type, .valueKind valueKind, .loc .self loc]
  | .nullStmt semiLoc => [.loc .semicolon semiLoc]
  | .unary operand op info opLoc =>
    [.operand operand, .unaryOp op, .loc .operator opLoc] ++ info.attributes
  | .unaryWithOverflow operand op info opLoc canOverflow =>
    [.operand operand, .unaryOp op, .loc .operator opLoc, .canOverflow canOverflow]
      ++ info.attributes
  | .binaryContractable lhs rhs op info opLoc contractable =>
    [.lhs lhs, .rhs rhs, .binaryOp op, .loc .operator opLoc, .fpOptions ⟨contraction contractable⟩]
      ++ info.attributes
  | .binaryOptions lhs rhs op info opLoc fpOptions =>
    [.lhs lhs, .rhs rhs, .binaryOp op, .loc .operator opLoc, .fpOptions fpOptions]
      ++ info.attributes
  | .ifPlacement ifLoc isConstexpr init condVar cond thenBranch =>
    [.loc .ifWord ifLoc, .isConstexpr isConstexpr, .init init, .condVar condVar, .cond cond,
      .thenBranch thenBranch]
  | .ifFactory ifLoc isConstexpr init condVar cond thenBranch elseLoc elseBranch =>
    [.loc .ifWord ifLoc, .isConstexpr isConstexpr, .init init, .condVar condVar, .cond cond,
      .thenBranch thenBranch, .loc .elseWord elseLoc, .elseBranch elseBranch]
  | .whilePlacement condVar cond body whileLoc
  | .whileFactory condVar cond body whileLoc =>
    [.condVar condVar, .cond cond, .body body, .loc .whileWord whileLoc]
  | .returnPlacement returnLoc value nrvoCandidate
  | .returnFactory returnLoc value nrvoCandidate =>
    [.loc .returnWord returnLoc, .returned value, .nrvoCandidate nrvoCandidate]
  | .compoundPlacement stmts lbraceLoc rbraceLoc
  | .compoundFactory stmts lbraceLoc rbraceLoc =>
    [.stmts stmts, .loc .lbrace lbraceLoc, .loc .rbrace rbraceLoc]
  | .callPlacement callee args type valueKind rparenLoc
  | .callFactory callee args type valueKind rparenLoc =>
    [.callee callee, .args args, .type type, .valueKind valueKind, .loc .rparen rparenLoc]

/-- The handles among the arguments in source order. -/
def operands : Construction → List StmtId
  | .integerLiteral .. | .declRef .. | .nullStmt .. => []
  | .unary operand .. | .unaryWithOverflow operand .. => [operand.toStmt]
  | .binaryContractable lhs rhs .. | .binaryOptions lhs rhs .. => [lhs.toStmt, rhs.toStmt]
  | .ifPlacement _ _ init _ cond thenBranch => init.toList ++ [cond.toStmt, thenBranch]
  | .ifFactory _ _ init _ cond thenBranch _ elseBranch =>
    init.toList ++ [cond.toStmt, thenBranch] ++ elseBranch.toList
  | .whilePlacement _ cond body _ | .whileFactory _ cond body _ => [cond.toStmt, body]
  | .returnPlacement _ value _ | .returnFactory _ value _ => value.toList.map ExprId.toStmt
  | .compoundPlacement stmts .. | .compoundFactory stmts .. => stmts
  | .callPlacement callee args .. | .callFactory callee args .. =>
    (callee :: args).map ExprId.toStmt

end Construction

/-- What a request names, as attributes of the node. -/
def Request.supplied : Request → List Attribute
  | .unary op operand type => [.unaryOp op, .operand operand, .type type]
  | .binary op lhs rhs type => [.binaryOp op, .lhs lhs, .rhs rhs, .type type]
  | .ifStmt cond thenBranch => [.cond cond, .thenBranch thenBranch]
  | .whileStmt cond body => [.cond cond, .body body]
  | .returnStmt value => [.returned value]
  | .compound stmts => [.stmts stmts]
  | .call callee args type => [.callee callee, .args args, .type type]

/-! ## Blueprints say what the arguments say -/

/-- A node says what was supplied, and else nothing but defaults. -/
structure Blueprint.Fills (b : Blueprint) (supplied : List Attribute) : Prop where
  keeps : ∀ a ∈ supplied, a ∈ b.attributes
  defaults : ∀ a ∈ b.attributes, a ∈ supplied ∨ a.isDefault

theorem Construction.kind_blueprint (k : Construction) : k.blueprint.kind = k.kind := by
  cases k <;> rfl

theorem Construction.children_blueprint (k : Construction) : k.blueprint.children = k.operands := by
  cases k <;> simp [blueprint, Blueprint.children, operands]

/-- The options that the flag is turned into are those that it stands for. -/
theorem Construction.ofContractable_eq (contractable : Bool) :
    FpOptions.ofContractable contractable = ⟨contraction contractable⟩ := by
  cases contractable <;> rfl

/-- No argument gets lost on the way into a blueprint, and what is missing is filled with
defaults. -/
theorem Construction.fills_blueprint (k : Construction) : k.blueprint.Fills k.supplied := by
  cases k <;> constructor <;>
    simp [blueprint, supplied, ofContractable_eq, Blueprint.attributes, ExprInfo.attributes,
      ExprInfo.prvalue, Attribute.isDefault, Location.invalid]

theorem Request.fills_blueprint (r : Request) : r.blueprint.Fills r.supplied := by
  cases r <;> constructor <;>
    simp [blueprint, supplied, Blueprint.attributes, ExprInfo.attributes, ExprInfo.prvalue,
      FpOptions.initial, Attribute.isDefault, Location.invalid]

/-! ## Stores keep what was built -/

/-- The segment that a node has, if it has one, consists of numbers of 32 bits. -/
def Node.Fits : Node → Prop
  | .call n => n.args.Fits
  | .compound n => n.body.Fits
  | _ => True

namespace NodeStore

/-- There is room exactly if what is handed out fits: the handle stays below the invalid one, and
the segment of the list consists of numbers of 32 bits. -/
theorem hasRoomFor_iff {s : NodeStore} {b : Blueprint} :
    s.HasRoomFor b.args b.body ↔ s.size < invalidIndex ∧ (s.place b).2.Fits := by
  -- a node has at most one list, and for the other there always is room
  cases b with
  | call n =>
    constructor
    · intro h
      exact ⟨h.node, ListPool.fits_add_iff.2 h.args⟩
    · rintro ⟨hnode, hfits⟩
      exact ⟨hnode, ListPool.fits_add_iff.1 hfits, .inl rfl⟩
  | compound n =>
    constructor
    · intro h
      exact ⟨h.node, ListPool.fits_add_iff.2 h.body⟩
    · rintro ⟨hnode, hfits⟩
      exact ⟨hnode, .inl rfl, ListPool.fits_add_iff.1 hfits⟩
  | _ => exact ⟨fun h => ⟨h.node, trivial⟩, fun h => ⟨h.1, .inl rfl, .inl rfl⟩⟩

/-- The handle is valid, and a node of the kind stands there. The node says what was supplied and
else nothing but defaults, and it has the children. -/
structure ReadsBack (s : NodeStore) (id : StmtId) (kind : NodeKind) (supplied : List Attribute)
    (children : List StmtId) : Prop where
  valid : id.isValid
  node : ∃ n b, s.node id = .ok n ∧ n.Fits ∧ n.kind = kind ∧ s.resolve n = .ok b ∧ b.Fills supplied
  children : s.children id = .ok children

/-- Whatever a store has grown into since a blueprint was built, the blueprint reads back. -/
theorem readsBack_of_extends {s t : NodeStore} {b : Blueprint} {supplied : List Attribute}
    (hroom : s.HasRoomFor b.args b.body) (ht : (s.build b).1.Extends t) (hb : b.Fills supplied) :
    t.ReadsBack ⟨s.size⟩ b.kind supplied b.children := by
  obtain ⟨hsize, hfits⟩ := hasRoomFor_iff.1 hroom
  have hvalid : (⟨s.size⟩ : StmtId).isValid := bne_iff_ne.2 (Nat.ne_of_lt hsize)
  have hnode : t.node ⟨s.size⟩ = .ok (s.place b).2 := by
    rw [← s.build_snd b]
    exact ht.node _ _ (node_add _ _)
  have hplace : (s.place b).1.Extends t := ((s.place b).1.extends_add _).trans ht
  have hresolve : t.resolve (s.place b).2 = .ok b := hplace.resolve (s.resolve_place b)
  exact
    { valid := hvalid
      node := ⟨_, b, hnode, hfits, s.kind_place b, hresolve, hb⟩
      children := children_eq_ok_iff.2 ⟨_, b, hnode, hresolve, rfl⟩ }

end NodeStore

namespace Arena

/-- A construction adds its blueprint at the next position. -/
theorem step_construct [Build] (c : Arena) (k : Construction) :
    c.step (.edit (.node (.construct k)))
      = { state := { c with store := (c.store.build k.blueprint).1 },
          answer := .ok (.built (k.blueprint.ref ⟨c.store.size⟩)) } := by
  simp [Arena.step, Arena.apply, Outcome.map, NodeStore.apply, NodeStore.construct_eq]

/-- **What was built reads back.** In any arena and with any arguments, whether the handles among
them lead anywhere or not and however long their lists are, as long as there is room for the list
and for one node more, which is no more than what is handed out needs to fit into 32 bits: every
construction and every request through any generation succeeds, and answers an expression handle for
an expression. After any further operations without a reset

* the handle is valid, the node at it is of the kind asked for, has all that was supplied and the
  canonical default for all that was not;
* its children are the handles that were supplied, in source order. -/
theorem constructed_reads_back [Build] (c : Arena) (more : List Operation)
    (hmore : .edit .reset ∉ more) :
    (∀ k : Construction, c.store.HasRoomFor k.args k.body → ∃ id : StmtId,
      (c.step (.edit (.node (.construct k)))).answer
          = .ok (.built (if k.kind.isExpr then .expr id.toExpr else .stmt id)) ∧
        ((c.step (.edit (.node (.construct k)))).state.after more).store.ReadsBack
          id k.kind k.supplied k.operands) ∧
    ∀ (g : Option Generation) (r : Request), c.store.HasRoomFor r.args r.body → ∃ id : StmtId,
      (c.step (.build g r)).answer
          = .ok (.built (if r.kind.nodeKind.isExpr then .expr id.toExpr else .stmt id)) ∧
        ((c.step (.build g r)).state.after more).store.ReadsBack
          id r.kind.nodeKind r.supplied r.operands := by
  constructor
  · intro k hroom
    rw [← k.args_blueprint, ← k.body_blueprint] at hroom
    have hlast := extends_after (c.step (.edit (.node (.construct k)))).state hmore
    have hreads := NodeStore.readsBack_of_extends hroom hlast.store k.fills_blueprint
    rw [k.kind_blueprint, k.children_blueprint] at hreads
    refine ⟨⟨c.store.size⟩, ?_, hreads⟩
    rw [step_construct, NodeForm.ref, NodeForm.isExpr_eq_isExpr_kind, k.kind_blueprint]
  · intro g r hroom
    rw [← r.args_blueprint, ← r.body_blueprint] at hroom
    have hlast := extends_after (c.step (.build g r)).state hmore
    have hstate : (c.step (.build g r)).state.store = (c.store.build r.blueprint).1 := by
      rw [step_build]
    have hreads := NodeStore.readsBack_of_extends hroom (hstate ▸ hlast.store) r.fills_blueprint
    rw [r.kind_blueprint, r.children_blueprint] at hreads
    refine ⟨⟨c.store.size⟩, ?_, hreads⟩
    rw [step_build, NodeForm.ref, NodeForm.isExpr_eq_isExpr_kind, r.kind_blueprint]

/-- A call of a node that does not exist, with one argument given twice, and an `if` without an else
branch. -/
theorem incomplete_reads_back :
    .edit .reset ∉ finishing ∧ unfinished.store.HasRoomFor [⟨0⟩, ⟨0⟩] [] ∧
      unfinished.store.HasRoomFor [] [] ∧
      (∃ id : StmtId,
        (unfinished.step (.build (some .gen6) (.call ⟨9⟩ [⟨0⟩, ⟨0⟩] (.builtin .int)))).answer
            = .ok (.built (.expr id.toExpr)) ∧
          ((unfinished.step
              (.build (some .gen6) (.call ⟨9⟩ [⟨0⟩, ⟨0⟩] (.builtin .int)))).state.after
              finishing).store.ReadsBack id .call
            [.callee ⟨9⟩, .args [⟨0⟩, ⟨0⟩], .type (.builtin .int)] [⟨9⟩, ⟨0⟩, ⟨0⟩]) ∧
      ∃ id : StmtId,
        ((unfinished.step (.edit (.node (.construct
            (.ifPlacement ⟨some 3⟩ true (some ⟨7⟩) none ⟨0⟩ ⟨1⟩))))).state.after
              finishing).store.ReadsBack id .ifStmt
          [.loc .ifWord ⟨some 3⟩, .isConstexpr true, .init (some ⟨7⟩), .condVar none, .cond ⟨0⟩,
            .thenBranch ⟨1⟩]
          [⟨7⟩, ⟨0⟩, ⟨1⟩] := by
  have hmore : .edit .reset ∉ finishing := by simp [finishing]
  have hnode : unfinished.store.size < invalidIndex := by decide +kernel
  have hargs : unfinished.store.exprLists.HasRoom [⟨0⟩, ⟨0⟩] := .inr (by decide +kernel)
  have hlist : unfinished.store.HasRoomFor [⟨0⟩, ⟨0⟩] [] := ⟨hnode, hargs, .inl rfl⟩
  have hnone : unfinished.store.HasRoomFor [] [] := ⟨hnode, .inl rfl, .inl rfl⟩
  obtain ⟨hconstruct, hrequest⟩ := unfinished.constructed_reads_back finishing hmore
  obtain ⟨id, -, hif⟩ := hconstruct (.ifPlacement ⟨some 3⟩ true (some ⟨7⟩) none ⟨0⟩ ⟨1⟩) hnone
  have hcall := hrequest (some .gen6) (.call ⟨9⟩ [⟨0⟩, ⟨0⟩] (.builtin .int)) hlist
  exact ⟨hmore, hlist, hnone, hcall, id, hif⟩

end Arena

end SyntaxArena
