import SyntaxArena.Proofs.Comparison
import SyntaxArena.Proofs.Growth
import SyntaxArena.Proofs.Observers
import SyntaxArena.Proofs.Program

/-!
# Building is independent of what is there

A program that builds has results of the same meaning in every arena, although their indices differ:
what it interns may be there already, and what it adds comes behind what is there.

- `SameMeaning`: two results, in two arenas, have one text, one type tree or one syntax tree.
- `Related`: the results of all steps so far have, step by step.
- `Related.sameMeaning_step`: so has the result of one more step.
- `Alike`: what can be observed of two results is the same.
- `Program.run_independent_of_arena`: from any two arenas that can be reached, a program leads to
  results that are alike.
-/

namespace SyntaxArena

theorem TypeTable.tree_builtin {t : TypeTable} {b : BuiltinType} {quals : Qualifiers}
    (h : t.kind b.typeId = .ok (.builtin b)) :
    t.tree { id := b.typeId, quals } = .ok (.builtin quals b) :=
  TypeTable.tree_iff.2 ⟨_, h, .builtin b⟩

/-! ## Results with one meaning -/

/-- Two results, each in its own arena, have one meaning. -/
inductive SameMeaning (c d : Arena) :
    ResultSort → Except Fault Answer → Except Fault Answer → Prop where
  | name {m n : Identifier} (h : Common (c.names.text m) (d.names.text n)) :
      SameMeaning c d .name (.ok (.name m)) (.ok (.name n))
  | type {i j : TypeId}
      (h : ∀ quals, Common (c.types.tree { id := i, quals }) (d.types.tree { id := j, quals })) :
      SameMeaning c d .type (.ok (.type { id := i })) (.ok (.type { id := j }))
  | node {a b : NodeRef} (h : Common (c.unfold a.toStmt) (d.unfold b.toStmt)) :
      SameMeaning c d .node (.ok (.built a)) (.ok (.built b))

theorem SameMeaning.of_extends {c d c' d' : Arena} {sort : ResultSort} {a b : Except Fault Answer}
    (h : SameMeaning c d sort a b) (hc : c.Extends c') (hd : d.Extends d') :
    SameMeaning c' d' sort a b := by
  cases h with
  | name h =>
    obtain ⟨text, hm, hn⟩ := h
    exact .name ⟨text, hc.text hm, hd.text hn⟩
  | type h =>
    refine .type fun quals => ?_
    obtain ⟨tree, hi, hj⟩ := h quals
    exact ⟨tree, hc.typeTree hi, hd.typeTree hj⟩
  | node h =>
    obtain ⟨tree, ha, hb⟩ := h
    exact .node ⟨tree, hc.unfold ha, hd.unfold hb⟩

/-- The results of steps of the given sorts have, step by step, one meaning in both arenas. -/
structure Related (c d : Arena) (sorts : List ResultSort) (rs rs' : List (Except Fault Answer)) :
    Prop where
  length_left : rs.length = sorts.length
  length_right : rs'.length = sorts.length
  entry : ∀ (k : Nat) (sort : ResultSort), sorts[k]? = some sort →
    ∃ a b, rs[k]? = some a ∧ rs'[k]? = some b ∧ SameMeaning c d sort a b

namespace Related

variable {c d c' d' : Arena} {sorts : List ResultSort} {rs rs' : List (Except Fault Answer)}

theorem nil (c d : Arena) : Related c d [] [] [] := ⟨rfl, rfl, nofun⟩

/-- One more result, after both arenas have grown. -/
theorem snoc (h : Related c d sorts rs rs') (hc : c.Extends c') (hd : d.Extends d')
    {sort : ResultSort} {a b : Except Fault Answer} (hab : SameMeaning c' d' sort a b) :
    Related c' d' (sorts ++ [sort]) (rs ++ [a]) (rs' ++ [b]) where
  length_left := by simp [h.length_left]
  length_right := by simp [h.length_right]
  entry k sort' hk := by
    by_cases hlt : k < sorts.length
    · rw [List.getElem?_append_left hlt] at hk
      obtain ⟨a', b', ha, hb, hab'⟩ := h.entry k sort' hk
      have hleft : k < rs.length := by rw [h.length_left]; exact hlt
      have hright : k < rs'.length := by rw [h.length_right]; exact hlt
      rw [List.getElem?_append_left hleft, List.getElem?_append_left hright]
      exact ⟨a', b', ha, hb, hab'.of_extends hc hd⟩
    · -- the last step is the new one
      have hk' : k = sorts.length := by
        have := (List.getElem?_eq_some_iff.1 hk).1
        rw [List.length_append, List.length_singleton] at this
        omega
      rw [hk', List.getElem?_concat_length] at hk
      obtain rfl := Option.some.inj hk
      refine ⟨a, b, ?_, ?_, hab⟩
      · rw [hk', ← h.length_left, List.getElem?_concat_length]
      · rw [hk', ← h.length_right, List.getElem?_concat_length]

/-! ## Operands -/

theorem common_stmt (h : Related c d sorts rs rs') {id : StmtId}
    (hid : sorts[id.index]? = some .node) :
    Common (c.unfold ((Renaming.ofResults rs).stmt id))
      (d.unfold ((Renaming.ofResults rs').stmt id)) := by
  obtain ⟨a, b, ha, hb, hab⟩ := h.entry _ _ hid
  cases hab with
  | node hab =>
    rw [Renaming.stmt_ofResults ha, Renaming.stmt_ofResults hb]
    exact hab

theorem common_text (h : Related c d sorts rs rs') {n : Identifier}
    (hn : sorts[n.index]? = some .name) :
    Common (c.names.text ((Renaming.ofResults rs).identifier n))
      (d.names.text ((Renaming.ofResults rs').identifier n)) := by
  obtain ⟨a, b, ha, hb, hab⟩ := h.entry _ _ hn
  cases hab with
  | name hab =>
    rw [Renaming.identifier_ofResults ha, Renaming.identifier_ofResults hb]
    exact hab

theorem common_typeTree (h : Related c d sorts rs rs') (hc : c.HasBuiltins) (hd : d.HasBuiltins)
    {t : QualType} (ht : (Reference.type t.id).InScope sorts) :
    Common (c.types.tree ((Renaming.ofResults rs).qualType t))
      (d.types.tree ((Renaming.ofResults rs').qualType t)) := by
  rcases ht with hlt | ⟨hge, hsort⟩
  · rw [Renaming.qualType_ofResults_builtin hlt, Renaming.qualType_ofResults_builtin hlt]
    obtain ⟨id, quals⟩ := t
    obtain ⟨b, rfl⟩ := BuiltinType.exists_typeId hlt
    exact ⟨.builtin quals b, TypeTable.tree_builtin (hc b), TypeTable.tree_builtin (hd b)⟩
  · obtain ⟨a, b, ha, hb, hab⟩ := h.entry _ _ hsort
    cases hab with
    | type hab =>
      rw [Renaming.qualType_ofResults hge ha, Renaming.qualType_ofResults hge hb]
      exact hab t.quals

end Related

/-! ## One layer in two arenas -/

section

variable {c d : Arena} {ρ σ : Renaming}

theorem common_spelling {t u : QualType} (h : Common (c.types.tree t) (d.types.tree u)) :
    Common (c.types.spelling t) (d.types.spelling u) := by
  obtain ⟨tree, ht, hu⟩ := h
  exact ⟨tree.spelling, TypeTable.spelling_of_tree ht, TypeTable.spelling_of_tree hu⟩

theorem common_spellInfo {i : ExprInfo}
    (h : Common (c.types.tree (ρ.qualType i.type)) (d.types.tree (σ.qualType i.type))) :
    Common (c.spellInfo (ρ.info i)) (d.spellInfo (σ.info i)) :=
  (common_spelling h).bind fun _ => .pure _

theorem common_spellDecl {e : VarDecl}
    (hname : Common (c.names.text (ρ.identifier e.name)) (d.names.text (σ.identifier e.name)))
    (htype : Common (c.types.tree (ρ.qualType e.type)) (d.types.tree (σ.qualType e.type))) :
    Common (c.spellDecl (ρ.decl e)) (d.spellDecl (σ.decl e)) :=
  hname.bind fun _ => (common_spelling htype).bind fun _ => .pure _

theorem common_spellDecl? {o : Option VarDecl}
    (h : ∀ e ∈ o, Common (c.spellDecl (ρ.decl e)) (d.spellDecl (σ.decl e))) :
    Common (c.spellDecl? (o.map ρ.decl)) (d.spellDecl? (o.map σ.decl)) := by
  cases o with
  | none => exact .pure none
  | some e => exact (h e rfl).bind fun _ => .pure _

/-- A node whose operands have one meaning in both arenas grows into one tree. -/
theorem common_grow {below below' : StmtId → Except Fault SyntaxTree} {b : Blueprint}
    (hinfo : ∀ i ∈ b.info?, Common (c.spellInfo (ρ.info i)) (d.spellInfo (σ.info i)))
    (hdecl : ∀ e ∈ b.decl?, Common (c.spellDecl (ρ.decl e)) (d.spellDecl (σ.decl e)))
    (hbelow : ∀ id ∈ b.children, Common (below (ρ.stmt id)) (below' (σ.stmt id))) :
    Common (c.grow below (ρ.blueprint b)) (d.grow below' (σ.blueprint b)) := by
  cases b with
  | integerLiteral n => exact (hinfo _ rfl).bind fun _ => .pure _
  | declRef n => exact (hdecl _ rfl).bind fun _ => (hinfo _ rfl).bind fun _ => .pure _
  | unary n =>
    have hoperand := hbelow n.operand.toStmt (by simp [Blueprint.children])
    exact hoperand.bind fun _ => (hinfo _ rfl).bind fun _ => .pure _
  | binary n =>
    have hlhs := hbelow n.lhs.toStmt (by simp [Blueprint.children])
    have hrhs := hbelow n.rhs.toStmt (by simp [Blueprint.children])
    exact hlhs.bind fun _ => hrhs.bind fun _ => (hinfo _ rfl).bind fun _ => .pure _
  | call n =>
    have hcallee := hbelow n.callee.toStmt (by simp [Blueprint.children])
    have hargs : Common ((n.args.map ρ.expr).mapM fun a => below a.toStmt)
        ((n.args.map σ.expr).mapM fun a => below' a.toStmt) :=
      .mapM_map fun a ha => hbelow a.toStmt (List.mem_map_of_mem (List.mem_cons_of_mem n.callee ha))
    exact hcallee.bind fun _ => hargs.bind fun _ => (hinfo _ rfl).bind fun _ => .pure _
  | ifStmt n =>
    have hinit : Common ((n.init.map ρ.stmt).mapM below) ((n.init.map σ.stmt).mapM below') :=
      .option_mapM_map fun id hid => hbelow id (by simp_all [Blueprint.children])
    have hcond := hbelow n.cond.toStmt (by simp [Blueprint.children])
    have hthen := hbelow n.thenBranch (by simp [Blueprint.children])
    have helse :
        Common ((n.elseBranch.map ρ.stmt).mapM below) ((n.elseBranch.map σ.stmt).mapM below') :=
      .option_mapM_map fun id hid => hbelow id (by simp_all [Blueprint.children])
    refine hinit.bind fun _ => (common_spellDecl? hdecl).bind fun _ => ?_
    exact hcond.bind fun _ => hthen.bind fun _ => helse.bind fun _ => .pure _
  | whileStmt n =>
    have hcond := hbelow n.cond.toStmt (by simp [Blueprint.children])
    have hbody := hbelow n.body (by simp [Blueprint.children])
    exact (common_spellDecl? hdecl).bind fun _ => hcond.bind fun _ => hbody.bind fun _ => .pure _
  | returnStmt n =>
    have hvalue : Common ((n.value.map ρ.expr).mapM fun e => below e.toStmt)
        ((n.value.map σ.expr).mapM fun e => below' e.toStmt) :=
      .option_mapM_map fun e he => hbelow e.toStmt (by simp_all [Blueprint.children])
    exact hvalue.bind fun _ => (common_spellDecl? hdecl).bind fun _ => .pure _
  | compound n =>
    have hbody : ∀ id ∈ n.body, Common (below (ρ.stmt id)) (below' (σ.stmt id)) := hbelow
    exact (Common.mapM_map hbody).bind fun _ => .pure _
  | nullStmt n => exact .pure _

/-- A type whose components have one meaning in both arenas has one tree. -/
theorem common_layer {kind : TypeKind} (quals : Qualifiers)
    (h : ∀ q ∈ kind.components,
      Common (c.types.tree (ρ.qualType q)) (d.types.tree (σ.qualType q))) :
    ∃ tree, (ρ.kind kind).Layer (fun q u => c.types.tree q = .ok u) quals tree ∧
      (σ.kind kind).Layer (fun q u => d.types.tree q = .ok u) quals tree := by
  cases kind with
  | builtin b => exact ⟨_, .builtin b, .builtin b⟩
  | pointer pointee =>
    obtain ⟨p, hp, hp'⟩ := h pointee List.mem_cons_self
    exact ⟨_, .pointer hp, .pointer hp'⟩
  | function ret params =>
    obtain ⟨r, hr, hr'⟩ := h ret List.mem_cons_self
    obtain ⟨ps, hps⟩ := Checked.exists_forall₂ fun q hq => h q (List.mem_cons_of_mem ret hq)
    refine ⟨.function quals r ps, .function hr ?_, .function hr' ?_⟩
    · exact List.forall₂_map_left_iff.2 (hps.imp fun _ _ hq => hq.1)
    · exact List.forall₂_map_left_iff.2 (hps.imp fun _ _ hq => hq.2)

end

/-! ## One step -/

theorem Instruction.extends_step [Build] (c : Arena) (i : Instruction) (g : Option Generation)
    (ρ : Renaming) : c.Extends (c.step (i.operation g ρ)).state := by
  cases i <;> exact c.extends_apply nofun

namespace Related

variable {c d : Arena} {sorts : List ResultSort} {rs rs' : List (Except Fault Answer)}

theorem of_extends (h : Related c d sorts rs rs') {c' d' : Arena} (hc : c.Extends c')
    (hd : d.Extends d') : Related c' d' sorts rs rs' where
  length_left := h.length_left
  length_right := h.length_right
  entry k sort hk := by
    obtain ⟨a, b, ha, hb, hab⟩ := h.entry k sort hk
    exact ⟨a, b, ha, hb, hab.of_extends hc hd⟩

/-- A blueprint whose references are results of earlier steps grows into one tree. -/
theorem common_blueprint (h : Related c d sorts rs rs') (hc : c.HasBuiltins) (hd : d.HasBuiltins)
    {b : Blueprint} (hscope : ∀ r ∈ b.references, r.InScope sorts) :
    Common (c.grow c.unfold ((Renaming.ofResults rs).blueprint b))
      (d.grow d.unfold ((Renaming.ofResults rs').blueprint b)) := by
  have htype {t : QualType} (ht : .type t.id ∈ b.references) :=
    h.common_typeTree hc hd (hscope _ ht)
  refine common_grow (fun i hi => ?_) (fun e he => ?_) (fun id hid => ?_)
  · exact common_spellInfo (htype (NodeForm.mem_references_of_info hi))
  · have hname : .name e.name ∈ b.references :=
      NodeForm.mem_references_of_decl he (by simp [VarDecl.references])
    have hdecl : .type e.type.id ∈ b.references :=
      NodeForm.mem_references_of_decl he (by simp [VarDecl.references])
    exact common_spellDecl (h.common_text (hscope _ hname)) (htype hdecl)
  · rw [b.children_eq_filterMap_references] at hid
    obtain ⟨r, hr, hnode⟩ := List.mem_filterMap.1 hid
    have hin := hscope r hr
    cases r with
    | expr e =>
      cases hnode
      exact h.common_stmt hin
    | stmt id' =>
      cases hnode
      exact h.common_stmt hin
    | _ => cases hnode

/-- What one blueprint builds in two arenas has one tree. -/
theorem sameMeaning_build {store store' : NodeStore} {names names' : IdentifierTable}
    {types types' : TypeTable} {b b' : Blueprint}
    (h : Common
      ((⟨(store.build b).1, names, types⟩ : Arena).grow
        (Arena.unfold ⟨(store.build b).1, names, types⟩) b)
      ((⟨(store'.build b').1, names', types'⟩ : Arena).grow
        (Arena.unfold ⟨(store'.build b').1, names', types'⟩) b')) :
    SameMeaning ⟨(store.build b).1, names, types⟩ ⟨(store'.build b').1, names', types'⟩ .node
      (.ok (.built (b.ref (store.build b).2))) (.ok (.built (b'.ref (store'.build b').2))) := by
  obtain ⟨tree, hb, hb'⟩ := h
  refine .node ⟨tree, ?_, ?_⟩
  · rw [NodeForm.toStmt_ref]
    exact Arena.unfold_build hb
  · rw [NodeForm.toStmt_ref]
    exact Arena.unfold_build hb'

/-- What one type is made of in two arenas has one tree, whether it was there before or is new. -/
theorem sameMeaning_add {store store' : NodeStore} {names names' : IdentifierTable}
    {types types' : TypeTable} (kind : TypeKind) {ρ σ : Renaming}
    (h : ∀ q ∈ kind.components,
      Common ((types.add (ρ.kind kind)).1.tree (ρ.qualType q))
        ((types'.add (σ.kind kind)).1.tree (σ.qualType q))) :
    SameMeaning ⟨store, names, (types.add (ρ.kind kind)).1⟩
      ⟨store', names', (types'.add (σ.kind kind)).1⟩ .type
      (.ok (.type (types.add (ρ.kind kind)).2)) (.ok (.type (types'.add (σ.kind kind)).2)) := by
  refine .type fun quals => ?_
  obtain ⟨tree, hleft, hright⟩ := common_layer
    (c := ⟨store, names, (types.add (ρ.kind kind)).1⟩)
    (d := ⟨store', names', (types'.add (σ.kind kind)).1⟩) quals h
  have hkind :
      (types.add (ρ.kind kind)).1.kind (types.add (ρ.kind kind)).2.id = .ok (ρ.kind kind) :=
    types.get_intern (ρ.kind kind)
  have hkind' :
      (types'.add (σ.kind kind)).1.kind (types'.add (σ.kind kind)).2.id = .ok (σ.kind kind) :=
    types'.get_intern (σ.kind kind)
  exact ⟨tree, TypeTable.tree_iff.2 ⟨_, hkind, hleft⟩, TypeTable.tree_iff.2 ⟨_, hkind', hright⟩⟩

/-- One instruction, performed in two arenas in which the results so far have one meaning each, has
a result with one meaning. -/
theorem sameMeaning_step [Build] (h : Related c d sorts rs rs') (hc : c.HasBuiltins)
    (hd : d.HasBuiltins) (i : Instruction) (hscope : ∀ r ∈ i.references, r.InScope sorts)
    (g g' : Option Generation) :
    SameMeaning (c.step (i.operation g (.ofResults rs))).state
      (d.step (i.operation g' (.ofResults rs'))).state i.sort
      (c.step (i.operation g (.ofResults rs))).answer
      (d.step (i.operation g' (.ofResults rs'))).answer := by
  have hcx := i.extends_step c g (.ofResults rs)
  have hdx := i.extends_step d g' (.ofResults rs')
  have hnew := h.of_extends hcx hdx
  have hc' := hc.of_extends hcx
  have hd' := hd.of_extends hdx
  obtain ⟨store, names, types⟩ := c
  obtain ⟨store', names', types'⟩ := d
  cases i with
  | intern text =>
    exact .name ⟨text, names.get_intern text, names'.get_intern text⟩
  | type e =>
    have hcomp : ∀ q ∈ e.kind.components, .type q.id ∈ (Instruction.type e).references :=
      fun q hq => List.mem_map.2 ⟨q, hq, rfl⟩
    cases e with
    | pointer pointee =>
      exact sameMeaning_add (.pointer pointee) fun q hq =>
        hnew.common_typeTree hc' hd' (hscope _ (hcomp q hq))
    | function ret params =>
      exact sameMeaning_add (.function ret params) fun q hq =>
        hnew.common_typeTree hc' hd' (hscope _ (hcomp q hq))
  | construct k =>
    have hgrow := hnew.common_blueprint hc' hd' (b := k.blueprint) hscope
    rw [← Renaming.blueprint_construction, ← Renaming.blueprint_construction] at hgrow
    exact sameMeaning_build hgrow
  | request r =>
    -- the generations may differ, the blueprint that their surfaces build does not
    have hgrow := hnew.common_blueprint hc' hd' (b := r.blueprint) hscope
    rw [← Renaming.blueprint_request, ← Renaming.blueprint_request,
      ← Surface.blueprint_construction (g.getD .selected).surface,
      ← Surface.blueprint_construction (g'.getD .selected).surface] at hgrow
    exact sameMeaning_build hgrow

end Related

/-! ## Whole programs -/

namespace Program

variable {c d : Arena} {sorts : List ResultSort} {rs rs' : List (Except Fault Answer)}

/-- Running the rest of a program keeps the results related. -/
theorem runFrom_related [Build] (g g' : Nat → Option Generation) (p : Program)
    (h : Related c d sorts rs rs') (hc : c.HasBuiltins) (hd : d.HasBuiltins)
    (hp : p.ScopedFrom sorts) :
    Related (runFrom g c rs p).1 (runFrom g' d rs' p).1 (sorts ++ p.map Instruction.sort)
      (runFrom g c rs p).2 (runFrom g' d rs' p).2 := by
  induction p generalizing c d sorts rs rs' with
  | nil =>
    rw [List.map_nil, List.append_nil]
    exact h
  | cons i p ih =>
    obtain ⟨hi, hrest⟩ := hp
    have hcx := i.extends_step c (g rs.length) (.ofResults rs)
    have hdx := i.extends_step d (g' rs'.length) (.ofResults rs')
    have hab := h.sameMeaning_step hc hd i hi (g rs.length) (g' rs'.length)
    have hnext := h.snoc hcx hdx hab
    rw [List.map_cons, List.append_cons]
    exact ih hnext (hc.of_extends hcx) (hd.of_extends hdx) hrest

end Program

/-- What can be observed of two results of a step, each in its own arena, is the same: the text of
names, the spelling of types, and the shape, the outline and the first location of nodes. -/
inductive Alike (c d : Arena) : ResultSort → Except Fault Answer → Except Fault Answer → Prop where
  | name {m n : Identifier} (text : Common (c.names.text m) (d.names.text n)) :
      Alike c d .name (.ok (.name m)) (.ok (.name n))
  | type {t u : QualType} (spelling : Common (c.types.spelling t) (d.types.spelling u)) :
      Alike c d .type (.ok (.type t)) (.ok (.type u))
  | node {a b : NodeRef} (same : Comparison.same ⟨c, d⟩ a.toStmt b.toStmt = .ok true)
      (outline : Common (c.outline a.toStmt) (d.outline b.toStmt))
      (firstLoc : Common (c.store.firstLoc a.toStmt) (d.store.firstLoc b.toStmt)) :
      Alike c d .node (.ok (.built a)) (.ok (.built b))

theorem SameMeaning.alike {c d : Arena} {sort : ResultSort} {a b : Except Fault Answer}
    (h : SameMeaning c d sort a b) : Alike c d sort a b := by
  cases h with
  | name h => exact .name h
  | type h => exact .type (common_spelling (h .none))
  | node h =>
    obtain ⟨tree, ha, hb⟩ := h
    have hsame : Decides (Comparison.same ⟨c, d⟩ _ _) (tree = tree) := Comparison.same_decides ha hb
    refine .node (hsame.of_true rfl) ⟨tree.outline, ?_, ?_⟩ ⟨tree.firstLoc, ?_, ?_⟩
    · exact Arena.outline_of_unfold ha
    · exact Arena.outline_of_unfold hb
    · exact Arena.firstLoc_of_unfold ha
    · exact Arena.firstLoc_of_unfold hb

/-- **Building is independent of what is there.** A program is run in two arenas, each reached by
any operations whatever, with any generations. Then every step has a result in both, the tables
being without bound, and what can be observed of the two results is the same. -/
theorem Program.run_independent_of_arena [Build] (p : Program) (hp : p.Scoped)
    (before before' : List Operation) (g g' : Nat → Option Generation) (k : Nat) (i : Instruction)
    (hi : p[k]? = some i) :
    ∃ a b, (p.run g (Arena.initial.after before)).2[k]? = some a ∧
      (p.run g' (Arena.initial.after before')).2[k]? = some b ∧
      Alike (p.run g (Arena.initial.after before)).1 (p.run g' (Arena.initial.after before')).1
        i.sort a b := by
  have hbefore := Arena.hasBuiltins_after before
  have hbefore' := Arena.hasBuiltins_after before'
  -- of the arenas at the start nothing is used but that the builtin types are where they always are
  have h := runFrom_related g g' p (.nil _ _) hbefore hbefore' hp
  have hsort : ([] ++ p.map Instruction.sort)[k]? = some i.sort := by
    rw [List.nil_append, List.getElem?_map, hi]
    rfl
  obtain ⟨a, b, ha, hb, hab⟩ := h.entry k i.sort hsort
  exact ⟨a, b, ha, hb, hab.alike⟩

namespace Program

/-- A variable that is a pointer, what it points to, and a block of the two. -/
def sample : Program :=
  [.intern "p", .type (.pointer (.builtin .int)),
    .construct (.declRef { name := ⟨0⟩, type := { id := ⟨9⟩ }, loc := .invalid } .lvalue .invalid),
    .request (.unary .deref ⟨2⟩ (.builtin .int)), .request (.compound [⟨3⟩, ⟨2⟩])]

/-- An arena in which one of the names and types is there already and the others get different
indices. -/
def sampleBefore : List Operation :=
  [.edit (.intern "q"), .edit (.intern "p"), .edit (.type (.pointer (.builtin .char))),
    .edit (.node (.construct (.nullStmt .invalid)))]

theorem sample_independent_of_arena :
    sample.Scoped ∧ ∃ a b, (sample.run (fun _ => none) (Arena.initial.after [])).2[4]? = some a ∧
      (sample.run (fun _ => some .gen4) (Arena.initial.after sampleBefore)).2[4]? = some b ∧
      Alike (sample.run (fun _ => none) (Arena.initial.after [])).1
        (sample.run (fun _ => some .gen4) (Arena.initial.after sampleBefore)).1 .node a b :=
  have hscoped : sample.Scoped := by decide
  ⟨hscoped, sample.run_independent_of_arena hscoped [] sampleBefore _ _ 4
    (.request (.compound [⟨3⟩, ⟨2⟩])) rfl⟩

end Program

end SyntaxArena
