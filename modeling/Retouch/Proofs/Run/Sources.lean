import Retouch.Proofs.Run.Stage

/-!
# Redirected runs and their sources

A run with an output directory is meant to read its sources and leave them alone. It does, unless
the output is above the sources and there is more than one codemod, or the output holds a link.

* **With one codemod, or an output that is not above the sources** (`get?_execute_of_output`), every
  file of the sources keeps its content, also when the run fails. Files that are in the output
  as well may change.
* **With an output above the sources and two codemods** the sources are rewritten
  (`execute_rewrites_sources`). The first codemod ignores the output with everything below it, so it
  comes to no file; the second one works in place on the output, and the sources are part of it.
-/

namespace Retouch

open FileStore

variable {runner : Runner} {target output : Path} {ignore : List Path} {world : World}
  {root out file : Location} {content : ByteArray}

/-- Where the results of a run go, no file of the sources is, unless the output is in the
sources. -/
theorem LandsIn.outside {extensions : List String} {ignored : IgnoreSet} {store ready : FileStore}
    (h : store.WellFormed) (hroot : store.get? root = some .directory)
    (hout : OutputAt root (some output) store out ready) (hdiffers : out ≠ root)
    (hfile : root <+: file) (hlands : LandsIn extensions ignored root (some output) store file) :
    root <+: out := by
  have hready := (hout.grows h).wellFormed h
  have hbelow := hlands.below h hout
  rcases List.prefix_or_prefix_of_prefix hfile hbelow.1 with hinside | habove
  · exact hinside
  · -- an output above the sources is ignored, and then the walk takes up no file
    obtain ⟨other, now, hother, source, hsource, -⟩ := hlands
    obtain ⟨rfl, rfl⟩ := hother.eq h hout
    obtain ⟨rest, -, rfl, -, -, -, hfree⟩ := (lists_directoryPlan_iff hready
      ((hout.grows h).directory hroot) hout.directory).mp hsource
    exact absurd ⟨hdiffers, habove.trans (List.prefix_append _ _)⟩ hfree

/-- If the output of a run is found at a directory, then the results of the run go there. -/
theorem outputAt_of_outputDirectory {ready : World} (h : world.store.WellFormed)
    (hroot : world.store.get? root = some .directory)
    (hresolved : outputDirectory root.toPath (some output) world = .ok out.toPath ready)
    (hout : ready.store.get? out = some .directory) :
    OutputAt root (some output) world.store out ready.store := by
  obtain ⟨journal, houtput⟩ := outputDirectory_eq h hroot (some output) world.journal
  rw [hresolved] at houtput
  cases hfound : outputRoot root (some output) world.store with
  | error error now =>
    rw [hfound] at houtput
    cases houtput
  | ok found now =>
    rw [hfound] at houtput
    cases houtput
    exact ⟨hfound, hout⟩

/-- However many manifests are run, a redirected run keeps the files of its sources, under the
provisos on the place of the output. -/
theorem get?_executeAll_of_output {ignored : IgnoreSet} {manifests : List Path} {ready : FileStore}
    (h : world.store.WellFormed) (htarget : world.store.locate target = .ok root)
    (hroot : world.store.get? root = some .directory)
    (hout : OutputAt root (some output) world.store out ready) (hdiffers : out ≠ root)
    (habove : out <+: root → manifests.length ≤ 1)
    (hlinks : ∀ location link, out <+: location → world.store.get? location ≠ some (.link link))
    (hfile : world.store.get? file = some (.file content)) (hsource : root <+: file)
    (hkept : ¬ (root <+: out ∧ out <+: file)) :
    (runner.executeAll ignored manifests target (some output) world).2.store.get? file =
      some (.file content) := by
  have hclear : OutputClear root (some output) world.store := by
    rintro base now hother -
    obtain ⟨rfl, -⟩ := hother.eq h hout
    exact hlinks
  cases manifests with
  | nil => exact hfile
  | cons manifest rest =>
    have hstage := stageRun_stage runner ignored manifest (some output) h hroot (.inl htarget)
    have hgrows := hstage.grows h hroot hclear
    have hnow : (runner.stage ignored manifest target (some output) world).2.store.get? file =
        some (.file content) := by
      refine (hgrows.file_iff fun hlands => hkept ⟨?_, (hlands.below h hout).1⟩).mpr hfile
      exact hlands.outside h hroot hout hdiffers hsource
    rw [Runner.executeAll_cons]
    cases hresult : runner.stage ignored manifest target (some output) world with
    | mk produced after =>
      rw [hresult] at hstage hgrows hnow
      cases produced with
      | error error => exact hnow
      | ok produced =>
        obtain ⟨loaded, next⟩ := produced
        obtain ⟨rfl, hready⟩ := hstage.grows_ready h hroot hclear hout
        have hlater := grows_executeAll runner ignored rest (hgrows.wellFormed h)
          (hready.directory hout.directory) (.inr rfl)
        cases rest with
        | nil => exact hnow
        | cons next others =>
          -- later codemods work in place on the output
          refine (hlater.file_iff ?_).mpr hnow
          rintro ⟨hbelow, -⟩
          rcases List.prefix_or_prefix_of_prefix hsource hbelow with hinside | hover
          · exact hkept ⟨hinside, hbelow⟩
          · have hlength := habove hover
            simp at hlength

/-- A redirected run keeps every file of its sources that is not in the output, unless the output is
above the sources and there is more than one codemod. -/
theorem get?_execute_of_output {ready : World} (h : world.store.WellFormed)
    (htarget : world.store.locate target = .ok root)
    (hroot : world.store.get? root = some .directory)
    (hresolved : outputDirectory root.toPath (some output) world = .ok out.toPath ready)
    (hout : ready.store.get? out = some .directory) (hdiffers : out ≠ root)
    (habove : out <+: root → runner.schedule.length ≤ 1)
    (hlinks : ∀ location link, out <+: location → world.store.get? location ≠ some (.link link))
    (hfile : world.store.get? file = some (.file content)) (hsource : root <+: file)
    (hkept : ¬ (root <+: out ∧ out <+: file)) :
    (runner.execute target (some output) ignore world).2.store.get? file =
      some (.file content) := by
  have hat := outputAt_of_outputDirectory h hroot hresolved hout
  exact get?_executeAll_of_output h htarget hroot hat hdiffers habove hlinks hfile hsource hkept

/-! ### Sources that are rewritten -/

/-- A source text with a literal in single quotes. -/
def singleQuoted : String := "<?php echo 'a';\n"

/-- What the codemod for string literals makes of it. -/
def literalReplaced : String := "<?php echo \"foo\";\n"

/-- The tree of a source text that echoes a literal, which ends at a position. -/
def echoTree (stop : Nat) (kind quote : String) : Concrete :=
  { kind := "program", span := ⟨0, stop + 2⟩
    children :=
      [{ kind := "php_tag", span := ⟨0, 5⟩ },
       { kind := "echo_statement", span := ⟨6, stop + 1⟩
         children :=
           [{ kind := "echo", span := ⟨6, 10⟩ },
            { kind, span := ⟨11, stop⟩
              children :=
                [{ kind := quote, span := ⟨11, 12⟩ },
                 { kind := "string_content", span := ⟨12, stop - 1⟩ },
                 { kind := quote, span := ⟨stop - 1, stop⟩ }] },
            { kind := ";", span := ⟨stop, stop + 1⟩ }] }] }

/-- A runner that knows the trees of the two texts. -/
def echoRunner (schedule : List Path) : Runner where
  registry := .builtin
  grammar := .php fun text =>
    if text = singleQuoted then echoTree 14 "string" "'" else echoTree 16 "encapsed_string" "\""
  schedule := schedule

/-- Two manifests and a source, with some more entries. -/
def bench (more : List (Location × Entry)) : World where
  store.entries :=
    [(["identity.toml"], .file "codemod = \"identity\"\n".toUTF8),
     (["strings.toml"], .file "codemod = \"replace-string-literals\"\n".toUTF8),
     (["proj"], .directory),
     (["proj", "src"], .directory),
     (["proj", "src", "a.php"], .file singleQuoted.toUTF8)] ++ more

/-- Two codemods, the second of which would change the source. -/
theorem get?_execute_of_output_bench :
    ((echoRunner [⟨"identity.toml"⟩, ⟨"strings.toml"⟩]).execute ⟨"proj/src"⟩ (some ⟨"out"⟩) []
      (bench [])).2.store.get? ["proj", "src", "a.php"] = some (.file singleQuoted.toUTF8) := by
  have hresolved : valueOf? (outputDirectory (Location.toPath ["proj", "src"]) (some ⟨"out"⟩)
      (bench [])) = some (Location.toPath ["out"]) := by decide +kernel
  have hlinks : (bench []).store.NoLinks := noLinks_of_entries (by decide +kernel)
  exact get?_execute_of_output (by decide +kernel) (by decide +kernel) (by decide +kernel)
    (eq_ok_of_valueOf? hresolved) (by decide +kernel) (by decide) (by decide)
    (fun location link _ => hlinks location link) (by decide +kernel) (by decide) (by decide)

/-- With an output above the sources and two codemods, the sources are rewritten. -/
theorem execute_rewrites_sources :
    (bench []).store.WellFormed ∧
    (bench []).store.locate ⟨"proj/src"⟩ = .ok ["proj", "src"] ∧
    ((echoRunner [⟨"identity.toml"⟩, ⟨"strings.toml"⟩]).execute ⟨"proj/src"⟩ (some ⟨"proj"⟩) []
      (bench [])).1 = .ok ⟨"/proj"⟩ ∧
    (bench []).store.get? ["proj", "src", "a.php"] = some (.file singleQuoted.toUTF8) ∧
    ((echoRunner [⟨"identity.toml"⟩, ⟨"strings.toml"⟩]).execute ⟨"proj/src"⟩ (some ⟨"proj"⟩) []
      (bench [])).2.store.get? ["proj", "src", "a.php"] = some (.file literalReplaced.toUTF8) := by
  decide +kernel

/-- An output that holds a link to a source: one codemod is enough to rewrite the source. -/
example :
    let world := bench
      [(["out"], .directory), (["out", "a.php"], .link ⟨"../proj/src/a.php"⟩)]
    world.store.WellFormed ∧
    ((echoRunner [⟨"strings.toml"⟩]).execute ⟨"proj/src"⟩ (some ⟨"out"⟩) [] world).1 =
      .ok ⟨"/out"⟩ ∧
    ((echoRunner [⟨"strings.toml"⟩]).execute ⟨"proj/src"⟩ (some ⟨"out"⟩) []
      world).2.store.get? ["proj", "src", "a.php"] = some (.file literalReplaced.toUTF8) := by
  decide +kernel

end Retouch
