import Retouch.Proofs.Run.Attempts

/-!
# Walks

A walk looks at directories while it writes files, so what it comes to could depend on what it has
done. It does not. Where the results go to another directory, that directory is ignored, and where
they go to the directory itself, only files that are there are written. So a directory that the walk
comes to looks as it did at the start (`WalkReady.shape_eq`), and a walk attempts the files of the
itinerary that it has at the start (`WalkReady.attempted_walkDirectory`).
-/

namespace Retouch

open FileStore Transformer

variable {σ : Type} {plan : WalkPlan} {start now : FileStore} {root base directory : Location}
  {transformer : Transformer σ} {site : Site σ}

namespace WalkReady

/-- A directory that is not ignored looks as it did at the start. -/
theorem shape_eq (h : WalkReady plan start root base) (hnow : Underway plan start root base now)
    (hproper : directory.Proper) (hfree : plan.ignored.covers directory = false) :
    now.shape directory = start.shape directory := by
  have houtside : base ≠ root → ¬ base <+: directory := by
    intro hne hbelow
    rw [IgnoreSet.covers_of_isPrefix hproper hbelow (h.ignored hne)] at hfree
    cases hfree
  refine shape_eq_of_get? (hnow.wellFormed h.wellFormed) h.wellFormed fun name => ?_
  refine hnow.kind_eq ?_ ?_
  · rintro ⟨file, hfile, heq⟩
    by_cases hne : base = root
    · subst hne
      rw [heq, h.landing_of_eq hfile]
      obtain ⟨_, -, -, htakes⟩ := hfile
      exact htakes.isFile
    · obtain ⟨hpre, hdiffer⟩ := base_prefix_landing base hfile
      rw [← heq] at hpre hdiffer
      rcases List.prefix_concat_iff.mp hpre with hsame | hinside
      · exact absurd hsame.symm hdiffer
      · exact absurd hinside (houtside hne)
  · rintro ⟨hne, rest, hrest, heq, -⟩
    have hpre : base <+: directory ++ [name] := heq ▸ List.prefix_append _ _
    rcases List.prefix_concat_iff.mp hpre with hsame | hinside
    · rw [← hsame] at heq
      exact hrest (List.self_eq_append_right.mp heq)
    · exact houtside hne hinside

end WalkReady

/-! ### The steps of a walk -/

/-- To find out whether a path is left out changes nothing, but may be reported. -/
theorem leavesOut_apply (plan : WalkPlan) (path : Path) (site : Site σ) :
    ∃ after, site.Quiet after ∧
      leavesOut plan path site = .ok (plan.ignored.contains site.store path) after := by
  rw [leavesOut, bind_apply, RunM.files_apply]
  cases hcontains : plan.ignored.contains site.store path with
  | true =>
    refine ⟨_, ⟨[⟨.debug, "ignored", [("path", path.raw)]⟩], rfl⟩, ?_⟩
    simp only [hcontains, if_true]
    rfl
  | false =>
    refine ⟨site, .refl site, ?_⟩
    simp only [hcontains, Bool.false_eq_true, if_false]
    rfl

/-- The entries of a directory are visited one after the other, up to the first one that fails. -/
theorem attempted_visitEntries {place : Location → Location} (inv : Site σ → Prop)
    {visit : String → Entry → RunM σ Nat} {stops : String × Entry → List Location}
    {entries : List (String × Entry)}
    (hvisit : ∀ item ∈ entries, ∀ site, inv site →
      Attempted transformer place (stops item) site (failureOf (visit item.1 item.2 site))
        (stateAfter (visit item.1 item.2 site)))
    (hinv : ∀ item ∈ entries, ∀ site after, inv site →
      Attempted transformer place (stops item) site none after → inv after)
    (hsite : inv site) :
    Attempted transformer place (entries.flatMap stops) site
      (failureOf (visitEntries visit entries site))
      (stateAfter (visitEntries visit entries site)) := by
  induction entries generalizing site with
  | nil => exact .done (.refl site)
  | cons item rest ih =>
    have hfirst := hvisit item List.mem_cons_self site hsite
    obtain ⟨name, entry⟩ := item
    rw [List.flatMap_cons, visitEntries, bind_apply]
    cases hhere : visit name entry site with
    | error error after =>
      rw [hhere] at hfirst
      exact hfirst.append_of_stopped _
    | ok count after =>
      rw [hhere, failureOf, stateAfter] at hfirst
      have hothers := ih (fun item hitem => hvisit item (List.mem_cons_of_mem _ hitem))
        (fun item hitem => hinv item (List.mem_cons_of_mem _ hitem))
        (hinv _ List.mem_cons_self _ _ hsite hfirst)
      simp only [bind_apply]
      cases hrest : visitEntries visit rest after with
      | error error last =>
        rw [hrest] at hothers
        exact hfirst.append hothers
      | ok others last =>
        rw [hrest] at hothers
        exact hfirst.append hothers

namespace WalkReady

variable {levels : Nat} {relative : Location}

/-- The files at an entry of a directory that is not ignored are files of the walk. -/
theorem lists_of_mem_stops (h : WalkReady plan start root base)
    (hfree : plan.ignored.covers (root ++ relative) = false) {name : String} {kind : EntryKind}
    (hentry : (start.get? (root ++ relative ++ [name])).map Entry.kind = some kind)
    {file : Location}
    (hfile : file ∈ WalkPlan.stops plan (itinerary start plan levels) (root ++ relative ++ [name])
      kind) :
    WalkPlan.Lists plan start root file := by
  have hmem : file ∈ itinerary start plan (levels + 1) (root ++ relative) := by
    rw [itinerary, hfree, if_neg Bool.false_ne_true]
    exact List.mem_flatMap.mpr
      ⟨(name, kind), (mem_shape_iff h.wellFormed).mpr hentry, hfile⟩
  exact (lists_of_mem_itinerary h.wellFormed hmem).of_append

/-- A file that the walk comes to is transformed if it has one of the extensions and is not
ignored. -/
theorem attempted_visitFile (h : WalkReady plan start root base) {name : String}
    {content : ByteArray} (hentry : start.get? (root ++ relative ++ [name]) = some (.file content))
    (hsite : Underway plan start root base site.store) (below : Location → List Location) :
    Attempted transformer (mirror root base)
      (WalkPlan.stops plan below (root ++ relative ++ [name]) .file) site
      (failureOf (visitFile transformer plan (Location.toPath (root ++ relative ++ [name]))
        (relative ++ [name]) site))
      (stateAfter (visitFile transformer plan (Location.toPath (root ++ relative ++ [name]))
        (relative ++ [name]) site)) := by
  have hproper := h.wellFormed.proper_of_get? hentry
  have hclear := clear_of_get? h.wellFormed hentry (by simp [Entry.kind])
  obtain ⟨noted, hquiet, hleaves⟩ :=
    leavesOut_apply plan (Location.toPath (root ++ relative ++ [name])) site
  rw [IgnoreSet.contains_toPath (hsite.wellFormed h.wellFormed) hproper (hsite.clear hclear)]
    at hleaves
  have hnames : (relative ++ [name]).Proper := by
    rw [List.append_assoc] at hproper
    exact (Location.proper_append.mp hproper).2
  have htarget : plan.output.join ⟨"/".intercalate (relative ++ [name])⟩ =
      (mirror root base (root ++ relative ++ [name])).toPath := by
    rw [h.output, List.append_assoc, mirror_append,
      Location.join_toPath (h.wellFormed.proper_of_get? h.baseThere) hnames (by simp)]
  rw [WalkPlan.stops, visitFile, bind_apply, hleaves]
  cases hcovered : plan.ignored.covers (root ++ relative ++ [name]) with
  | true =>
    simp only [if_true]
    exact .done hquiet
  | false =>
    simp only [Bool.false_eq_true, if_false]
    split
    case isFalse => exact .done hquiet
    case isTrue =>
      rw [bind_apply, htarget]
      cases hfile : transformer.onFile (Location.toPath (root ++ relative ++ [name]))
          (some (mirror root base (root ++ relative ++ [name])).toPath) noted with
      | error error after => exact .stop hquiet hfile
      | ok target after => exact .next hquiet hfile (.done (.refl after))

/-- A walk attempts the files that it would come to if nothing changed. -/
theorem attempted_walkDirectory (h : WalkReady plan start root base) (transformer : Transformer σ)
    (levels : Nat) (relative : Location)
    (hthere : start.get? (root ++ relative) = some .directory)
    (hsite : Underway plan start root base site.store) :
    Attempted transformer (mirror root base) (itinerary start plan levels (root ++ relative)) site
      (failureOf (walkDirectory transformer plan levels (root ++ relative) relative site))
      (stateAfter (walkDirectory transformer plan levels (root ++ relative) relative site)) := by
  induction levels generalizing relative site with
  | zero => exact .done (.refl site)
  | succ levels ih =>
    -- earlier attempts do not change what is left out: no link is made or removed
    have hproper := h.wellFormed.proper_of_get? hthere
    have hclear : start.Clear (root ++ relative) :=
      clear_of_get? h.wellFormed hthere (by simp [Entry.kind])
    obtain ⟨noted, hquiet, hleaves⟩ :=
      leavesOut_apply plan (Location.toPath (root ++ relative)) site
    rw [IgnoreSet.contains_toPath (hsite.wellFormed h.wellFormed) hproper (hsite.clear hclear)]
      at hleaves
    rw [itinerary, walkDirectory, bind_apply, hleaves]
    cases hcovered : plan.ignored.covers (root ++ relative) with
    | true =>
      simp only [if_true]
      exact .done hquiet
    | false =>
      simp only [Bool.false_eq_true, if_false]
      rw [bind_apply, RunM.files_apply]
      refine Attempted.of_quiet hquiet ?_
      rw [← hquiet.store_eq] at hsite
      -- the names and kinds of the entries are still those of the start
      have hshape := h.shape_eq hsite hproper hcovered
      have hkind : ∀ item ∈ noted.store.list (root ++ relative),
          (start.get? (root ++ relative ++ [item.1])).map Entry.kind = some item.2.kind := by
        intro item hitem
        rw [← mem_shape_iff h.wellFormed, ← hshape]
        exact List.mem_map.mpr ⟨item, hitem, rfl⟩
      rw [← hshape, shape, List.flatMap_map]
      refine attempted_visitEntries (fun site => Underway plan start root base site.store) ?_ ?_
        hsite
      · rintro ⟨name, entry⟩ hitem site hsite
        have hentry := hkind _ hitem
        obtain ⟨entry', hentry', hsame⟩ := Option.map_eq_some_iff.mp hentry
        cases entry with
        | directory =>
          cases entry' with
          | directory =>
            rw [List.append_assoc] at hentry'
            simp only [Entry.kind, WalkPlan.stops, List.append_assoc]
            exact ih _ hentry' hsite
          | file content => cases hsame
          | link target => cases hsame
        | file content =>
          cases entry' with
          | file content' => exact h.attempted_visitFile hentry' hsite _
          | directory => cases hsame
          | link target => cases hsame
        | link target =>
          obtain ⟨after, hafter, hleft⟩ :=
            leavesOut_apply plan (Location.toPath (root ++ relative ++ [name])) site
          simp only [bind_apply, hleft]
          exact .done hafter
      · intro item hitem site after hsite hattempted
        exact hattempted.underway h
          (fun file => h.lists_of_mem_stops hcovered (hkind item hitem)) hsite

end WalkReady

end Retouch
