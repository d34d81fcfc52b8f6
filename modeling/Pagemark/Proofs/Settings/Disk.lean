/-
  Pagemark.Proofs.Settings.Disk — a settings file that is there is looked for.

  Before a service looks for the file among the settings of the user, the folders on the way to it are
  made, and where that fails the file is passed over. So it has to be shown that it never fails for a
  file that is there. Making folders ends at a file that is in the way or at a name that no folder can
  have. On a disk that can be, nothing is below such a place, and a path that goes on from there leads
  nowhere, whatever else has been made before.

  A relative path can find a file that is not at it, in a folder above the working folder. That happens to a
  path at which no file is, or, for a service, at which a folder is.

  Proved: `made_makeWay` — what making folders does; `loaded?_of_unmade` — nothing is found where it fails;
  `files_places`, `loaded?_places` — the files of a service; `search?_eq_read?`, `loaded?_eq_read?` — when the
  file that is found for a path is the one at it.
-/

import Pagemark.Proofs.Text.Cut
import Pagemark.Settings.Disk

namespace Pagemark.Settings

namespace Disk

variable {d : Disk} {place : List String}

/-! ## Folders -/

/-- A disk as it can be: no file is a folder as well, and all names fit. -/
structure Possible (d : Disk) : Prop where
  apart : ∀ file ∈ d.files, d.isFolder file.1 = false
  fits : ∀ anchor ∈ d.anchors, ∀ name ∈ anchor, fits name = true

theorem isFolder_iff : d.isFolder place = true ↔ ∃ anchor ∈ d.anchors, place <+: anchor := by
  simp [isFolder]

/-- What is above a folder is one. -/
theorem isFolder_of_above {below : List String} (h : d.isFolder below = true) (habove : place <+: below) :
    d.isFolder place = true := by
  obtain ⟨anchor, hanchor, hbelow⟩ := isFolder_iff.mp h
  exact isFolder_iff.mpr ⟨anchor, hanchor, habove.trans hbelow⟩

namespace Possible

theorem fits_of_isFolder (possible : d.Possible) (h : d.isFolder place = true) {name : String} (hname : name ∈ place) :
    Settings.fits name = true := by
  obtain ⟨anchor, hanchor, habove⟩ := isFolder_iff.mp h
  exact possible.fits anchor hanchor name (habove.subset hname)

theorem isFile_eq_false (possible : d.Possible) (h : d.isFolder place = true) : d.isFile place = false := by
  rw [← Bool.not_eq_true]
  intro isFile
  obtain ⟨content, hcontent⟩ := Option.isSome_iff_exists.mp isFile
  obtain ⟨before, after, hfiles, -⟩ := List.lookup_eq_some_iff.mp hcontent
  have apart := possible.apart (place, content) (by simp [hfiles])
  rw [h] at apart
  cases apart

end Possible

/-- A name that leads on from a folder leads up, or to something that may be new below it. -/
theorem plainStep_cases (place : List String) (name : String) :
    plainStep place name <+: place ∨ plainStep place name = place ++ [name] := by
  unfold plainStep
  split
  · exact .inl (List.prefix_refl _)
  split
  · exact .inl (List.dropLast_prefix _)
  · exact .inr rfl

/-- Nothing is below a place where a folder cannot be made. -/
theorem isFolder_plainStep_eq_false (possible : d.Possible) {name : String}
    (h : (d.isFile (plainStep place name) || !fits name) = true) : d.isFolder (plainStep place name) = false := by
  rw [← Bool.not_eq_true]
  intro isFolder
  rw [possible.isFile_eq_false isFolder, Bool.false_or, Bool.not_eq_true'] at h
  -- The names that lead to no new place fit, so the one that does not fit is the last of the place.
  have named : plainStep place name = place ++ [name] := by
    unfold plainStep
    split
    · rename_i stay
      rcases stay with rfl | rfl <;> exact absurd h (by decide)
    split
    · rename_i up
      exact absurd h (by rw [up]; decide)
    · rfl
  have last : name ∈ plainStep place name := by simp [named]
  have fit := possible.fits_of_isFolder isFolder last
  rw [h] at fit
  cases fit

/-- A path does not go on from what is no folder. -/
theorem walk_of_not_isFolder (h : d.isFolder place = false) {names : List String} (hne : names ≠ []) :
    names.foldlM d.step? place = none := by
  obtain ⟨name, names, rfl⟩ := List.exists_cons_of_ne_nil hne
  rw [List.foldlM_cons, step?, h]
  rfl

/-! ## Making folders -/

/-- The disk with one more folder. -/
def withFolder (d : Disk) (folder : List String) : Disk := { d with folders := folder :: d.folders }

theorem isFolder_withFolder {folder : List String} :
    (d.withFolder folder).isFolder place = true ↔ d.isFolder place = true ∨ place <+: folder := by
  simp only [isFolder_iff, anchors, withFolder, List.cons_append, List.mem_cons, List.mem_append]
  constructor
  · rintro ⟨anchor, rfl | rfl | hanchor, habove⟩
    · exact .inl ⟨_, .inl rfl, habove⟩
    · exact .inr habove
    · exact .inl ⟨_, .inr hanchor, habove⟩
  · rintro (⟨anchor, rfl | hanchor, habove⟩ | habove)
    · exact ⟨_, .inl rfl, habove⟩
    · exact ⟨_, .inr (.inr hanchor), habove⟩
    · exact ⟨_, .inr (.inl rfl), habove⟩

/-- A folder can be made in another one, where no file is and under a name that fits. -/
theorem possible_withFolder (possible : d.Possible) (hplace : d.isFolder place = true) {name : String}
    (hfile : d.isFile (plainStep place name) = false) (hfits : fits name = true) :
    (d.withFolder (plainStep place name)).Possible := by
  have fitting : ∀ n ∈ plainStep place name, fits n = true := by
    intro n hn
    rcases plainStep_cases place name with up | named
    · exact possible.fits_of_isFolder hplace (up.subset hn)
    · rw [named, List.mem_append, List.mem_singleton] at hn
      rcases hn with hn | rfl
      · exact possible.fits_of_isFolder hplace hn
      · exact hfits
  refine ⟨fun file hmem => ?_, fun anchor hanchor => ?_⟩
  · rw [← Bool.not_eq_true, isFolder_withFolder]
    have apart : d.isFolder file.1 = false := possible.apart file hmem
    -- A file below which the new folder is would be the folder itself, where no file is, or be above its place.
    rintro (old | habove)
    · exact absurd (apart.symm.trans old) (by decide)
    rcases plainStep_cases place name with up | named
    · exact absurd (apart.symm.trans (isFolder_of_above hplace (habove.trans up))) (by decide)
    · rw [named, List.prefix_concat_iff] at habove
      rcases habove with same | habove
      · have isFile : d.isFile file.1 = true := by
          rw [isFile, List.lookup_isSome_iff]
          exact ⟨file, hmem, beq_self_eq_true _⟩
        rw [same, ← named, hfile] at isFile
        cases isFile
      · exact absurd (apart.symm.trans (isFolder_of_above hplace habove)) (by decide)
  · simp only [anchors, withFolder, List.cons_append, List.mem_cons, List.mem_append] at hanchor
    rcases hanchor with rfl | rfl | hanchor
    · exact possible.fits _ List.mem_cons_self
    · exact fitting
    · exact possible.fits _ (List.mem_cons_of_mem _ (List.mem_append.mpr hanchor))

/-- Folders can be made, files and the working folder stay, and where it fails no path goes on. -/
structure Made (d : Disk) (place names : List String) (result : Disk × Bool) : Prop where
  possible : result.1.Possible
  files : result.1.files = d.files
  working : result.1.working = d.working
  unmade : result.2 = false → ∀ more ≠ [], (names ++ more).foldlM result.1.step? place = none

theorem made_make (possible : d.Possible) (hplace : d.isFolder place = true) (names : List String) :
    Made d place names (d.make place names) := by
  induction names generalizing d place with
  | nil => exact ⟨possible, rfl, rfl, fun h => by cases h⟩
  | cons name names ih =>
    rw [make]
    split
    · rename_i blocked
      refine ⟨possible, rfl, rfl, fun _ more hne => ?_⟩
      have stuck := isFolder_plainStep_eq_false possible blocked
      -- There is one more name at least, and it has nowhere to lead from.
      have goesOn : names ++ more ≠ [] := List.append_ne_nil_of_right_ne_nil names hne
      rw [List.cons_append, List.foldlM_cons, step?, if_pos hplace, Option.bind_eq_bind, Option.bind_some]
      exact walk_of_not_isFolder stuck goesOn
    · rename_i free
      rw [Bool.or_eq_true, not_or, Bool.not_eq_true, Bool.not_eq_true', Bool.not_eq_false] at free
      obtain ⟨hfile, hfits⟩ := free
      have made := ih (possible_withFolder possible hplace hfile hfits)
        (isFolder_withFolder.mpr (.inr (List.prefix_refl _)))
      refine ⟨made.possible, made.files, made.working, fun h more hne => ?_⟩
      rw [List.cons_append, List.foldlM_cons, step?]
      split
      · exact made.unmade h more hne
      · rfl

theorem isFolder_start (d : Disk) (path : String) : d.isFolder (d.start path) = true := by
  refine isFolder_iff.mpr ⟨d.working, List.mem_cons_self, ?_⟩
  unfold start
  split
  · exact List.nil_prefix
  · exact List.prefix_refl _

/-- A path does not go on from a name that no folder can have. -/
theorem walk_of_unfit (possible : d.Possible) {name : String} (hfits : fits name = false) {names : List String}
    (hname : name ∈ names) {more : List String} (hne : more ≠ []) : (names ++ more).foldlM d.step? place = none := by
  induction names generalizing place with
  | nil => cases hname
  | cons next names ih =>
    rw [List.cons_append, List.foldlM_cons, step?]
    split
    · rw [Option.bind_eq_bind, Option.bind_some]
      rcases List.mem_cons.mp hname with rfl | hname
      · have unfit : (d.isFile (plainStep place name) || !fits name) = true := by rw [hfits, Bool.not_false, Bool.or_true]
        have stuck := isFolder_plainStep_eq_false possible unfit
        exact walk_of_not_isFolder stuck (List.append_ne_nil_of_right_ne_nil names hne)
      · exact ih hname
    · rfl

theorem made_makeWay (possible : d.Possible) (path : String) :
    Made d (d.start path) (pathNames path).dropLast (d.makeWay path) := by
  rw [makeWay]
  split
  · rename_i null
    refine ⟨possible, rfl, rfl, fun _ more hne => ?_⟩
    obtain ⟨name, hname, hnull⟩ := List.any_eq_true.mp null
    exact walk_of_unfit possible (by simp only [fits, hnull, Bool.not_true, Bool.and_false]) hname hne
  · exact made_make possible (isFolder_start d path) _

/-! ## Files -/

theorem pathNames_ne_nil (path : String) : pathNames path ≠ [] := by
  rw [pathNames, Ne, List.map_eq_nil_iff]
  exact Text.pieces_ne_nil _

/-- Nothing is at a path on whose way a folder could not be made. -/
theorem loaded?_of_unmade (possible : d.Possible) {path : String} (h : (d.makeWay path).2 = false) :
    (d.makeWay path).1.loaded? path = none := by
  have made := made_makeWay possible path
  have start : (d.makeWay path).1.start path = d.start path := by rw [Disk.start, made.working, Disk.start]
  have nowhere : (d.makeWay path).1.walk? (d.start path) path = none := by
    have stuck := made.unmade h [(pathNames path).getLast (pathNames_ne_nil path)] (List.cons_ne_nil _ _)
    rwa [List.dropLast_concat_getLast (pathNames_ne_nil path)] at stuck
  simp [loaded?, has, hasFolder, read?, readFrom?, start, nowhere]

theorem above_eq_cons (place : List String) : ∃ folders, above place = place :: folders := by
  rw [above, List.range_succ_eq_map, List.map_cons, Nat.sub_zero, List.take_length]
  exact ⟨_, rfl⟩

/-- The file at a path is the one found for it. For a relative path this takes that a file is there. -/
theorem search?_eq_read? {path : String} (h : isAbsolute path = true ∨ (d.read? path).isSome = true) :
    d.search? path = d.read? path := by
  unfold search?
  split
  · rfl
  · rename_i relative
    obtain ⟨text, htext⟩ := Option.isSome_iff_exists.mp (h.resolve_left relative)
    obtain ⟨folders, habove⟩ := above_eq_cons d.working
    have near : d.readFrom? d.working path = some text := by
      rw [← htext, read?, start, if_neg relative]
    rw [habove, List.findSome?_cons, near, htext]

/-- The file at a path is the one found for it, or there is none. For a relative path this takes that no
folder is there. -/
theorem loaded?_eq_read? {path : String} (h : isAbsolute path = true ∨ d.hasFolder path = false) :
    d.loaded? path = d.read? path := by
  unfold loaded? has
  cases hread : d.read? path with
  | some text =>
    rw [Option.isSome_some, Bool.or_true, if_pos rfl, search?_eq_read? (.inr (by rw [hread]; rfl)), hread]
  | none =>
    rw [Option.isSome_none, Bool.or_false]
    split
    · rename_i folder
      rcases h with absolute | plain
      · rw [search?_eq_read? (.inl absolute), hread]
      · rw [folder] at plain
        cases plain
    · rfl

end Disk

/-- The files stay as they are. -/
theorem files_places {d : Disk} (possible : d.Possible) (userSettings service : String) :
    (places d userSettings service).1.files = d.files := by
  simp only [places]
  exact (Disk.made_makeWay possible _).files

/-- The files of a service. The one of the user is only passed over when it is not there. -/
theorem loaded?_places {d : Disk} (possible : d.Possible) (userSettings service : String) :
    let own := placeOf userSettings service
    let system := placeOf "/etc" service
    let found := (places d userSettings service).1.loaded?
    (places d userSettings service).2.map found = [found fileName, found own, found system] ∨
      found own = none ∧ (places d userSettings service).2.map found = [found fileName, found system] := by
  intro own system found
  simp only [found, places]
  cases made : (d.makeWay own).2 with
  | true => exact .inl rfl
  | false => exact .inr ⟨Disk.loaded?_of_unmade possible made, rfl⟩

end Pagemark.Settings
