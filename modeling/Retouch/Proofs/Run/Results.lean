import Retouch.Proofs.Run.Attempts

/-!
# What becomes of the files of a walk

The files of a walk share one codemod, whose state goes from each of them to the next.
`Transformed` is the account of such a sequence: the text that each file had at the start, what the
codemod made of it in the state that it was in by then, that the result is in its place in the end,
and that one event reports the file.

* **A list of attempts without a failure is such a sequence** (`Attempted.transformed`). One that
  fails is such a sequence up to the file that failed (`Attempted.exists_stop`).
* **The journal names the files of the sequence** (`Transformed.traced_eq`), each of them once and
  in order, if the codemod does not report files itself.
-/

namespace Retouch

open FileStore Transformer

variable {σ : Type}

/-! ### Reports on files -/

/-- The input and the output of the file that an event reports. -/
def Event.traced? : Event → Option (Path × Path)
  | .transformed input output _ => some (input, output)
  | _ => none

/-- The inputs and outputs of the files that were reported, in order. -/
def Journal.traced (journal : Journal) : List (Path × Path) :=
  journal.events.filterMap Event.traced?

/-- What is added to a journal is reported after what it held. -/
@[simp] theorem Journal.traced_append (journal : Journal) (events : List Event) :
    (journal.append events).traced = journal.traced ++ events.filterMap Event.traced? := by
  simp [traced, append]

/-- A report on a file is the last one in the journal. -/
@[simp] theorem Journal.traced_reported (journal : Journal) (input target : Path)
    (changed : Bool) :
    (journal.reported input target changed).traced = journal.traced ++ [(input, target)] := by
  simp [reported, add, Event.traced?]

/-- Texts are transformed without a report on a file. -/
def Transformer.KeepsTrace (transformer : Transformer σ) : Prop :=
  ∀ text context live,
    (stateAfter (transformer.onText text context live)).journal.traced = live.journal.traced

/-- Nothing happened but that events were reported, and none of them reports a file. -/
def Live.Quiet (live left : Live σ) : Prop :=
  ∃ events : List Event, events.filterMap Event.traced? = [] ∧
    left = { live with journal := live.journal.append events }

namespace Live.Quiet

variable {a b c : Live σ}

/-- To report nothing is to be quiet. -/
theorem refl (live : Live σ) : live.Quiet live :=
  ⟨[], rfl, by simp [Journal.append]⟩

/-- Events that report no file may come one after the other. -/
theorem trans (hab : a.Quiet b) (hbc : b.Quiet c) : a.Quiet c := by
  obtain ⟨first, hfirst, rfl⟩ := hab
  obtain ⟨second, hsecond, rfl⟩ := hbc
  exact ⟨first ++ second, by simp [hfirst, hsecond], by simp [Journal.append]⟩

/-- Where it was quiet, no file was reported. -/
theorem traced_eq (h : a.Quiet b) : b.journal.traced = a.journal.traced := by
  obtain ⟨events, hevents, rfl⟩ := h
  simp [hevents]

end Live.Quiet

/-- Diagnostics report no file. -/
theorem Site.Quiet.live {site after : Site σ} (h : site.Quiet after) :
    site.live.Quiet after.live := by
  obtain ⟨records, rfl⟩ := h
  refine ⟨records.map .diagnostic, ?_, rfl⟩
  simp [Event.traced?]

/-! ### Files, one after the other -/

/-- Files were transformed one after the other. Each was read as it is `before`, its result is in
its place `after`, and one event reports it. The codemod is handed on from each file to the next. -/
inductive Transformed (transformer : Transformer σ) (place : Location → Location)
    (before after : FileStore) : List Location → (live left : Live σ) → Prop
  | done {live left : Live σ} (hquiet : live.Quiet left) :
      Transformed transformer place before after [] live left
  | next {file : Location} {rest : List Location} {live ready now left : Live σ}
      {text result : String} (hquiet : live.Quiet ready)
      (htext : before.get? file = some (.file text.toUTF8))
      (hresult : transformer.onText text (some (.forFile file.toPath (place file).toPath)) ready =
        .ok result now)
      (hstored : after.get? (place file) = some (.file result.toUTF8))
      (hrest : Transformed transformer place before after rest
        (now.reported file.toPath (place file).toPath (result != text)) left) :
      Transformed transformer place before after (file :: rest) live left

namespace Transformed

variable {transformer : Transformer σ} {place place' : Location → Location}
  {before after before' after' : FileStore} {files : List Location}
  {earlier live left later : Live σ}

/-- Events that report no file may come before the sequence. -/
theorem of_quiet (hquiet : earlier.Quiet live)
    (h : Transformed transformer place before after files live left) :
    Transformed transformer place before after files earlier left := by
  cases h with
  | done hdone => exact .done (hquiet.trans hdone)
  | next hready htext hresult hstored hrest =>
    exact .next (hquiet.trans hready) htext hresult hstored hrest

/-- Events that report no file may come after the sequence. -/
theorem then_quiet (h : Transformed transformer place before after files live left)
    (hquiet : left.Quiet later) : Transformed transformer place before after files live later := by
  induction h with
  | done hdone => exact .done (hdone.trans hquiet)
  | next hready htext hresult hstored _ ih =>
    exact .next hready htext hresult hstored (ih hquiet)

/-- The account is about the files of the sequence and the places of their results only. -/
theorem transport (h : Transformed transformer place before after files live left)
    (hplace : ∀ file ∈ files, place file = place' file)
    (hbefore : ∀ file ∈ files, ∀ content, before.get? file = some (.file content) →
      before'.get? file = some (.file content))
    (hafter : ∀ file ∈ files, ∀ content, after.get? (place file) = some (.file content) →
      after'.get? (place file) = some (.file content)) :
    Transformed transformer place' before' after' files live left := by
  induction h with
  | done hdone => exact .done hdone
  | @next file rest live ready now left text result hready htext hresult hstored _ ih =>
    have hsame := hplace file List.mem_cons_self
    have hnew := hafter file List.mem_cons_self _ hstored
    have hothers := ih (fun other hother => hplace other (List.mem_cons_of_mem _ hother))
      (fun other hother => hbefore other (List.mem_cons_of_mem _ hother))
      (fun other hother => hafter other (List.mem_cons_of_mem _ hother))
    rw [hsame] at hresult hnew hothers
    exact .next hready (hbefore file List.mem_cons_self _ htext) hresult hnew hothers

/-- What the sequence says about one of its files. -/
theorem of_mem {file : Location}
    (h : Transformed transformer place before after files live left) (hmem : file ∈ files) :
    ∃ text result ready now, before.get? file = some (.file text.toUTF8) ∧
      transformer.onText text (some (.forFile file.toPath (place file).toPath)) ready =
        .ok result now ∧
      after.get? (place file) = some (.file result.toUTF8) := by
  induction h with
  | done => cases hmem
  | next hready htext hresult hstored _ ih =>
    rcases List.mem_cons.mp hmem with rfl | hrest
    · exact ⟨_, _, _, _, htext, hresult, hstored⟩
    · exact ih hrest

/-- The files of the sequence are reported, each of them once and in order, and no other file is. -/
theorem traced_eq (hkeeps : transformer.KeepsTrace)
    (h : Transformed transformer place before after files live left) :
    left.journal.traced =
      live.journal.traced ++ files.map fun file => (file.toPath, (place file).toPath) := by
  induction h with
  | done hquiet => simp [hquiet.traced_eq]
  | @next file rest live ready now left text result hquiet _ hresult _ _ ih =>
    have hnow := hkeeps text (some (.forFile file.toPath (place file).toPath)) ready
    rw [hresult, stateAfter] at hnow
    rw [ih]
    simp [Live.reported, hnow, hquiet.traced_eq]

end Transformed

/-! ### Attempts -/

namespace Attempted

variable {plan : WalkPlan} {start : FileStore} {root base : Location} {place : Location → Location}
  {transformer : Transformer σ} {site after : Site σ} {files : List Location} {error : RunError}

/-- Attempts that fail do so at one file, and up to there they do not fail. -/
theorem exists_stop (h : Attempted transformer place files site (some error) after) :
    ∃ earlier file later middle ready, files = earlier ++ file :: later ∧
      Attempted transformer place earlier site none middle ∧ middle.Quiet ready ∧
      transformer.onFile file.toPath (some (place file).toPath) ready = .error error after := by
  generalize hsome : some error = failure at h
  induction h with
  | done => cases hsome
  | @next file rest site ready left after target failure hquiet hfile _ ih =>
    obtain ⟨earlier, stop, later, middle, now, rfl, hearlier, hnow, hstop⟩ := ih hsome
    exact ⟨file :: earlier, stop, later, middle, now, rfl, .next hquiet hfile hearlier, hnow, hstop⟩
  | @stop file rest site ready after error hquiet hfile =>
    cases hsome
    exact ⟨[], file, rest, site, ready, rfl, .done (.refl site), hquiet, hfile⟩

/-- When no file fails, each is transformed from the text that it had at the start. -/
theorem transformed (h : WalkReady plan start root base)
    (hfiles : ∀ file ∈ files, WalkPlan.Lists plan start root file) (hnodup : files.Nodup)
    (hattempted : Attempted transformer (mirror root base) files site none after)
    (hsite : Underway plan start root base site.store)
    (hold : ∀ file ∈ files, site.store.get? file = start.get? file) :
    Transformed transformer (fun file => landing start (mirror root base file)) start after.store
      files site.live after.live := by
  generalize hnone : none = failure at hattempted
  induction hattempted with
  | done hquiet => exact .done hquiet.live
  | @next file rest site ready left after target failure hquiet hresult hrest ih =>
    have hfile := hfiles file List.mem_cons_self
    have hothers := fun other hother => hfiles other (List.mem_cons_of_mem _ hother)
    obtain ⟨hnew, hnodup⟩ := List.nodup_cons.mp hnodup
    rw [← hquiet.store_eq] at hsite hold
    have houtcome := h.fileOutcome_onFile_underway transformer hsite hfile
    rw [hresult] at houtcome
    cases houtcome with
    | passed htext hmade hlive hgrows hwritten =>
      have hleft : Underway plan start root base left.store :=
        hsite.trans (hgrows.mono (fun location heq => ⟨file, hfile, heq⟩) fun _ h => h)
      have hstored := ((hrest.grows h hothers hleft).file_iff ?later).mpr hwritten
      case later =>
        -- no later result goes there
        rintro ⟨other, hother, heq⟩
        rw [h.eq_of_landing hfile (hothers other hother) heq] at hnew
        exact hnew hother
      have hkept : ∀ other ∈ rest, left.store.get? other = start.get? other := by
        intro other hother
        obtain ⟨_, -, -, htakes⟩ := hothers other hother
        obtain ⟨content, hcontent⟩ := htakes.isFile
        have hnow := hold other (List.mem_cons_of_mem _ hother)
        rw [hcontent] at hnow ⊢
        refine (hgrows.file_iff (h.ne_landing hfile (hothers other hother) ?_)).mpr hnow
        rintro rfl
        exact hnew hother
      have hlater := ih hothers hnodup hleft hkept hnone
      rw [hlive] at hlater
      rw [hold file List.mem_cons_self] at htext
      exact .next hquiet.live htext hmade hstored hlater
  | stop => cases hnone

end Attempted

end Retouch
