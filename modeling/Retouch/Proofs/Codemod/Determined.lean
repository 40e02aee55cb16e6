import Retouch.Proofs.Codemod.Closure
import Retouch.Run.Runner

/-!
# Codemods whose result depends only on the tree

A codemod has a state, which lasts from one text to the next, and it sees the context of a text.
Most codemods use them for counting and for messages only, so what they make of a tree, and whether
they fail, depends on the tree alone (`Prepared.TreeDetermined`).

* **Codemods without hooks of their own** (`treeDetermined_of_plan`) are of this kind if what their
  visitors give does not depend on the state.
* **The codemods of the library** (`Prepared.Builtin`). A codemod that is loaded from the library is
  one of three, with some options (`Runner.builtin_of_loadCodemod`), and each of them is of this
  kind (`Runner.treeDetermined_of_builtin`).
-/

namespace Retouch

variable {σ τ : Type}

/-- On a part of a state, visitors are as oblivious as on that part alone. -/
theorem Visitor.Within.oblivious_focus {get : σ → τ} {put : τ → σ → σ} {visitor : Visitor τ}
    (h : visitor.Within .oblivious) : (visitor.focus get put).Within .oblivious where
  before tree := Oblivious.focus (h.before tree)
  enter node := Oblivious.focus (h.enter node)
  leave node := Oblivious.focus (h.leave node)
  after tree := Oblivious.focus (h.after tree)

/-- What the codemod makes of a tree, and whether it fails, depends on the tree alone. -/
def Prepared.TreeDetermined (prepared : Prepared σ) : Prop :=
  ∀ tree context context' state state',
    valueOf? (prepared.transform context tree state) =
      valueOf? (prepared.transform context' tree state')

/-- The codemod of a transformer, if there is one, depends on the tree alone. -/
def Loaded.TreeDetermined (loaded : Loaded) : Prop :=
  ∀ prepared, loaded.transformer.codemod = some prepared → prepared.TreeDetermined

/-- Without hooks before and after the steps, it is enough that the visitors are oblivious. -/
theorem Prepared.treeDetermined_of_plan {prepared : Prepared σ}
    (hbefore : prepared.codemod.before = fun _ => pure)
    (hafter : prepared.codemod.after = fun _ => pure)
    (hplan : ∀ visitors ∈ prepared.plan, ∀ visitor ∈ visitors, visitor.Within .oblivious) :
    prepared.TreeDetermined := by
  intro tree context context' state state'
  have hsteps : ∀ tree, Oblivious (runSteps prepared.plan tree) := holds_runSteps hplan
  rw [transform, transform, hbefore, hafter]
  exact Oblivious.bind (.pure tree)
    (fun tree => .bind (hsteps tree) fun tree => .pure tree) state state'

/-! ### The codemods of the library -/

/-- Whatever the options are, a codemod that is made from them replaces literals by a value. -/
theorem StringLiterals.exists_value_of_ofOptions {options : Options} {codemod : Codemod Nat}
    (h : ofOptions options = .ok codemod) : ∃ value, codemod = StringLiterals.codemod value := by
  rw [ofOptions] at h
  cases hoption : options.string? "replacement" with
  | error failure =>
    rw [hoption] at h
    cases h
  | ok replacement =>
    rw [hoption] at h
    cases h
    exact ⟨_, rfl⟩

/-- Whatever the options are, a codemod that is made from them renames a function. -/
theorem RenameFunction.exists_names_of_ofOptions {options : Options} {codemod : Codemod Unit}
    (h : ofOptions options = .ok codemod) :
    ∃ old new, codemod = RenameFunction.codemod old new := by
  rw [ofOptions] at h
  cases hnew : options.string "to" with
  | error failure =>
    rw [hnew] at h
    cases h
  | ok new =>
    rw [hnew] at h
    simp only [bind, Except.bind] at h
    split at h
    · cases hold : options.string? "from" with
      | error failure =>
        rw [hold] at h
        cases h
      | ok old =>
        rw [hold] at h
        cases h
        exact ⟨old, new, rfl⟩
    · cases h

/-- The visitor that replaces literals counts them, and does not look at the count. -/
theorem StringLiterals.oblivious_replacer (value : String) :
    (replacer value).Within .oblivious where
  before _ := Oblivious.pure _
  enter _ := Oblivious.pure _
  leave node := by
    simp only [replacer]
    split
    · exact Oblivious.bind (.modify _) fun _ => .pure _
    · exact Oblivious.pure _
  after _ := Oblivious.pure _

/-- Renaming looks at the context and at the state only for its reports. -/
theorem RenameFunction.valueOf?_rename (name : Option String) (newName : String)
    (context context' : Context) (tree : Tree) (state state' : HookState σ) :
    valueOf? (rename name newName context tree state) =
      valueOf? (rename name newName context' tree state') := by
  rw [rename, rename]
  cases (tree.findWhere? (isTarget name)).bind fun node => node.childByField? nameField with
  | none => rfl
  | some nameNode => rfl

/-- All that the codemod does is to rename, before the steps that it does not have. -/
theorem RenameFunction.valueOf?_transform (old : Option String) (new name : String)
    (manifest : Path) (context : Context) (tree : Tree) (state : HookState Unit) :
    valueOf? (Prepared.transform ⟨name, manifest, codemod old new, []⟩ context tree state) =
      valueOf? (rename old new context tree state) := by
  simp only [Prepared.transform, codemod, bind_apply]
  cases rename old new context tree state <;> rfl

/-- A codemod of the library that is set up: the one that changes nothing, the one that replaces
string literals, or the one that renames a function. -/
inductive Prepared.Builtin : {σ : Type} → Prepared σ → Prop
  | identity (name : String) (manifest : Path) :
      Builtin ({ name, manifest, codemod := {}, plan := [] } : Prepared Unit)
  | stringLiterals (value name : String) (manifest : Path) :
      Builtin { name, manifest, codemod := StringLiterals.codemod value,
                plan := [[(StringLiterals.replacer value).ofCodemod]] }
  | renameFunction (old : Option String) (new name : String) (manifest : Path) :
      Builtin { name, manifest, codemod := RenameFunction.codemod old new, plan := [] }

/-- Each codemod of the library depends on the tree alone. -/
theorem Prepared.Builtin.treeDetermined {prepared : Prepared σ} (h : prepared.Builtin) :
    prepared.TreeDetermined := by
  cases h with
  | identity name manifest =>
    exact treeDetermined_of_plan rfl rfl (fun _ hmem => absurd hmem List.not_mem_nil)
  | stringLiterals value name manifest =>
    refine treeDetermined_of_plan rfl rfl ?_
    simp only [List.mem_singleton, forall_eq]
    exact (StringLiterals.oblivious_replacer value).oblivious_focus
  | renameFunction old new name manifest =>
    intro tree context context' state state'
    rw [RenameFunction.valueOf?_transform, RenameFunction.valueOf?_transform]
    exact RenameFunction.valueOf?_rename old new context context' tree state state'

namespace Registry

/-- What is registered is the new factory or was registered before. -/
theorem mem_registerIn {name : String} {factory : Factory} {factories : List (String × Factory)}
    {entry : String × Factory} (h : entry ∈ registerIn name factory factories) :
    entry.2 = factory ∨ entry ∈ factories := by
  induction factories with
  | nil =>
    rw [registerIn, List.mem_singleton] at h
    rw [h]
    exact .inl rfl
  | cons first rest ih =>
    obtain ⟨other, old⟩ := first
    rw [registerIn] at h
    split at h
    · rcases List.mem_cons.mp h with rfl | h
      · exact .inl rfl
      · exact .inr (List.mem_cons_of_mem _ h)
    · split at h
      · rcases List.mem_cons.mp h with rfl | h
        · exact .inl rfl
        · exact .inr h
      · rcases List.mem_cons.mp h with rfl | h
        · exact .inr List.mem_cons_self
        · exact (ih h).imp_right (List.mem_cons_of_mem _)

/-- A codemod that is built comes from a factory of the registry. -/
theorem exists_factory_of_build {registry : Registry} {manifest : Manifest} {made : Instance}
    {journal journal' : Journal} (h : registry.build manifest journal = (.ok made, journal')) :
    ∃ factory, registry.get? manifest.codemod = some factory ∧
      factory manifest.options journal = (.ok made, journal') := by
  rw [build] at h
  split at h
  · cases h
  · rename_i factory hfactory
    split at h
    · rename_i hmade
      cases h
      exact ⟨factory, hfactory, hmade⟩
    · cases h

/-- A codemod that is loaded comes from a factory of the registry. -/
theorem exists_factory_of_load {registry : Registry} {store : FileStore} {path : Path}
    {name : String} {made : Instance} {journal journal' : Journal}
    (h : registry.load store path journal = (.ok (name, made), journal')) :
    ∃ factory options before, registry.get? name = some factory ∧
      factory options before = (.ok made, journal') := by
  rw [load] at h
  split at h
  · cases h
  · simp only at h
    split at h
    · rename_i hbuild
      cases h
      obtain ⟨factory, hfactory, hmade⟩ := exists_factory_of_build hbuild
      exact ⟨factory, _, _, hfactory, hmade⟩
    · cases h

/-- The factories of the library. -/
theorem builtin_cases {name : String} {factory : Factory} (h : builtin.get? name = some factory) :
    factory = .ofOptions (fun _ => .ok {}) () ∨ factory = .ofOptions StringLiterals.ofOptions 0 ∨
      factory = .ofOptions RenameFunction.ofOptions () := by
  obtain ⟨entry, hfind, rfl⟩ := Option.map_eq_some_iff.mp h
  rcases mem_registerIn (List.mem_of_find?_eq_some hfind) with heq | hmem
  · exact .inr (.inr heq)
  · rcases mem_registerIn hmem with heq | hmem
    · exact .inr (.inl heq)
    · rcases mem_registerIn hmem with heq | hmem
      · exact .inl heq
      · cases hmem

/-- A factory of the library makes codemods of the library, set up in any way. -/
theorem builtin_of_prepare {name title : String} {factory : Factory} {options : Options}
    {journal journal' : Journal} {made : Instance} {manifest : Path}
    {state after : HookState made.State} {prepared : Prepared made.State}
    (hfactory : builtin.get? name = some factory)
    (hmade : factory options journal = (.ok made, journal'))
    (hprepared : made.codemod.prepare title manifest state = .ok prepared after) :
    prepared.Builtin := by
  rcases builtin_cases hfactory with rfl | rfl | rfl
  · cases hmade
    cases hprepared
    exact .identity title manifest
  · rw [Factory.ofOptions] at hmade
    split at hmade
    · rename_i codemod hcodemod
      obtain ⟨value, rfl⟩ := StringLiterals.exists_value_of_ofOptions hcodemod
      cases hmade
      cases hprepared
      exact .stringLiterals value title manifest
    · cases hmade
  · rw [Factory.ofOptions] at hmade
    split at hmade
    · rename_i codemod hcodemod
      obtain ⟨old, new, rfl⟩ := RenameFunction.exists_names_of_ofOptions hcodemod
      cases hmade
      cases hprepared
      exact .renameFunction old new title manifest
    · cases hmade

end Registry

namespace Runner

variable {runner : Runner} {manifest : Path} {world after : World} {loaded : Loaded}

/-- A codemod that is loaded from the library is one of the library. -/
theorem builtin_of_loadCodemod (hregistry : runner.registry = .builtin)
    (h : runner.loadCodemod manifest world = (.ok loaded, after)) :
    ∃ prepared, loaded.transformer.codemod = some prepared ∧ prepared.Builtin := by
  rw [loadCodemod, hregistry] at h
  split at h
  · cases h
  · rename_i name made journal hload
    split at h
    · cases h
    · rename_i hmade
      cases h
      obtain ⟨factory, options, before, hfactory, hbuilt⟩ := Registry.exists_factory_of_load hload
      rw [Loaded.ofInstance] at hmade
      split at hmade
      · rename_i prepared state hprepared
        cases hmade
        exact ⟨prepared, rfl, Registry.builtin_of_prepare hfactory hbuilt hprepared⟩
      · cases hmade

/-- A codemod that is loaded from the library depends on the tree alone. -/
theorem treeDetermined_of_builtin (hregistry : runner.registry = .builtin)
    (h : runner.loadCodemod manifest world = (.ok loaded, after)) : loaded.TreeDetermined := by
  obtain ⟨prepared, hprepared, hbuiltin⟩ := builtin_of_loadCodemod hregistry h
  intro other hother
  obtain rfl := Option.some.inj (hprepared.symm.trans hother)
  exact hbuiltin.treeDetermined

end Runner

end Retouch
