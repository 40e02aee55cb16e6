import Mathlib.Data.List.Flatten
import Mathlib.Data.List.Forall2
import Retouch.Proofs.Codemod.Determined
import Retouch.Proofs.Run.Results

/-!
# Reports on files come from the run

A run reports each file that it has transformed, by an event of its own. A codemod writes to the
same journal, so what the journal says about files can be told from the run only if the codemod
reports none (`Transformer.KeepsTrace`).

* **Transformers that keep the trace.** Without a codemod there is nobody else to report a file
  (`keepsTrace_of_no_codemod`). With one, it is enough that its hooks and the hooks of its visitors
  report none (`Prepared.keepsTrace_of_hooks`). The codemods of the library are of this kind
  (`Runner.keepsTrace_of_builtin`).
* **Reports on the console** (`Journal.forall₂_traceLines`). The lines that show such reports are
  one for one and in order those of the files that were reported.
-/

namespace Retouch

variable {σ : Type}

/-! ### Codemods that report no file -/

/-- What was reported about files is the same after the codemod, whether it fails or not. -/
def Prepared.KeepsTrace (prepared : Prepared σ) : Prop :=
  ∀ context tree,
    Keeps (fun state : HookState σ => state.journal.traced) (prepared.transform context tree)

/-- Actions of hooks that report no file. -/
abbrev ActionClass.traceKeeping : ActionClass (HookState σ) :=
  .keeping fun state => state.journal.traced

/-- An event that does not report a file may be reported. -/
theorem keeps_reportEvent {event : Event} (h : event.traced? = none) :
    Keeps (fun state : HookState σ => state.journal.traced) (reportEvent event) := by
  apply Keeps.modify
  intro state
  simp [HookState.append, h]

/-- Work on the state of a codemod leaves the journal alone. -/
theorem keeps_focus_own {α : Type} (action : HookM σ α) :
    Keeps (fun state : HookState σ => state.journal.traced)
      (focus HookState.own (fun own state => { state with own }) id action) := by
  apply Keeps.focus
  intro own state
  rfl

/-- A visitor that works on the state of a codemod does not get to see the journal. -/
theorem Visitor.traceKeeping_ofCodemod (visitor : Visitor σ) :
    visitor.ofCodemod.Within .traceKeeping where
  before tree := keeps_focus_own (visitor.before tree)
  enter node := keeps_focus_own (visitor.enter node)
  leave node := keeps_focus_own (visitor.leave node)
  after tree := keeps_focus_own (visitor.after tree)

/-- A codemod reports no file if neither its hooks nor those of its visitors do. -/
theorem Prepared.keepsTrace_of_hooks {prepared : Prepared σ}
    (hbefore : ∀ context tree, ActionClass.traceKeeping.Holds
      (prepared.codemod.before context tree))
    (hplan : ∀ visitors ∈ prepared.plan, ∀ visitor ∈ visitors, visitor.Within .traceKeeping)
    (hafter : ∀ context tree, ActionClass.traceKeeping.Holds
      (prepared.codemod.after context tree)) : prepared.KeepsTrace :=
  holds_transform hbefore hplan hafter

/-- Renaming a function is reported by a diagnostic or a warning, and by nothing else. -/
theorem RenameFunction.keeps_rename (name : Option String) (newName : String) (context : Context)
    (tree : Tree) :
    Keeps (fun state : HookState σ => state.journal.traced) (rename name newName context tree) := by
  unfold rename
  split
  · exact (keeps_reportEvent rfl).bind fun _ _ => rfl
  · exact (keeps_reportEvent rfl).bind fun _ _ => rfl

/-- No codemod of the library reports a file. -/
theorem Prepared.Builtin.keepsTrace {prepared : Prepared σ} (h : prepared.Builtin) :
    prepared.KeepsTrace := by
  cases h with
  | identity name manifest =>
    apply keepsTrace_of_hooks
    · exact fun _ _ _ => rfl
    · exact fun _ hmem => absurd hmem List.not_mem_nil
    · exact fun _ _ _ => rfl
  | stringLiterals value name manifest =>
    apply keepsTrace_of_hooks
    · exact fun _ _ _ => rfl
    · simp only [List.mem_singleton, forall_eq]
      exact (StringLiterals.replacer value).traceKeeping_ofCodemod
    · exact fun _ _ _ => rfl
  | renameFunction old new name manifest =>
    apply keepsTrace_of_hooks
    · exact RenameFunction.keeps_rename old new
    · exact fun _ hmem => absurd hmem List.not_mem_nil
    · exact fun _ _ _ => rfl

/-! ### Transformers that report no file -/

namespace Transformer

variable {transformer : Transformer σ}

/-- A transformer reports no file while it transforms a text, if its codemod does not. -/
theorem keepsTrace_of_codemod
    (h : ∀ prepared, transformer.codemod = some prepared → prepared.KeepsTrace) :
    transformer.KeepsTrace := by
  intro text context live
  rw [onText]
  cases transformer.grammar.parse text with
  | error fault => rfl
  | ok parsed =>
    cases hcodemod : transformer.codemod with
    | none => rfl
    | some codemod =>
      have hkept := h codemod hcodemod (context.getD .empty) parsed.tree ⟨live.own, live.journal⟩
      simp only [bind_apply, transformTree]
      cases hmade : codemod.transform (context.getD .empty) parsed.tree
          ⟨live.own, live.journal⟩ with
      | ok tree hooks =>
        rw [hmade] at hkept
        exact hkept
      | error failure hooks =>
        rw [hmade] at hkept
        exact hkept

/-- Without a codemod, nothing but the run reports a file. -/
theorem keepsTrace_of_no_codemod (h : transformer.codemod = none) : transformer.KeepsTrace := by
  apply keepsTrace_of_codemod
  intro prepared hprepared
  rw [h] at hprepared
  cases hprepared

end Transformer

/-- A transformer with a codemod that is loaded from the library reports no file by itself. -/
theorem Runner.keepsTrace_of_builtin {runner : Runner} {manifest : Path} {world after : World}
    {loaded : Loaded} (hregistry : runner.registry = .builtin)
    (h : runner.loadCodemod manifest world = (.ok loaded, after)) :
    loaded.transformer.KeepsTrace := by
  obtain ⟨prepared, hprepared, hbuiltin⟩ := builtin_of_loadCodemod hregistry h
  apply Transformer.keepsTrace_of_codemod
  intro other hother
  obtain rfl := Option.some.inj (hprepared.symm.trans hother)
  exact hbuiltin.keepsTrace

/-! ### Reports on the console -/

/-- The console line shows the report on a file, given by its input and its output. -/
def TraceLine (file : Path × Path) (line : Channel × String) : Prop :=
  ∃ changed, (Event.transformed file.1 file.2 changed).console = [line]

/-- The console lines that show reports on files, in order. -/
def Journal.traceLines (journal : Journal) : List (Channel × String) :=
  (journal.events.filter fun event => event.traced?.isSome).flatMap Event.console

/-- The report on a file is one line. -/
theorem Event.exists_console_transformed (input output : Path) (changed : Bool) :
    ∃ line, (Event.transformed input output changed).console = [line] := by
  unfold console
  dsimp only
  split
  · exact ⟨_, rfl⟩
  · exact ⟨_, rfl⟩

namespace Journal

/-- The lines that show reports on files are among those of the console. -/
theorem traceLines_sublist (journal : Journal) :
    List.Sublist journal.traceLines journal.console :=
  List.filter_sublist.flatMap Event.console

/-- Each file that was reported has one line, and the lines are in the order of the reports. -/
theorem forall₂_traceLines (journal : Journal) :
    List.Forall₂ TraceLine journal.traced journal.traceLines := by
  obtain ⟨events⟩ := journal
  unfold traced traceLines
  induction events with
  | nil => exact .nil
  | cons event rest ih =>
    cases event with
    | transformed input output changed =>
      obtain ⟨line, hline⟩ := Event.exists_console_transformed input output changed
      rw [List.filter_cons_of_pos (by rfl), List.flatMap_cons, hline]
      exact .cons ⟨changed, hline⟩ ih
    | line channel text => exact ih
    | warning message => exact ih
    | loaded codemod manifest => exact ih
    | diagnostic record => exact ih
    | note text => exact ih

end Journal

end Retouch
