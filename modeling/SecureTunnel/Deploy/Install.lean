import SecureTunnel.Deploy.Artifact
import SecureTunnel.General.Links
import SecureTunnel.General.Transition

/-!
# The installation

`release/install-atomic.sh`, run by any number of processes on one destination: they
copy an executable beside it, check the copy, keep a hard link to the executable that
it replaces, and rename the copy over the active path. A command is one step. Between
two of them, other installers run, the directories of the release change, a process is
killed, or a signal is trapped: then the copy and the link are removed, and the script
goes on at the next command. Where `rm` fails in the trap, the script exits.

* `install_safe`: whatever happens, the active path is never without an executable
  once it had one, and a new one has passed all checks of an installer.
* `install_outcome`: what a single installation leaves, wherever it stops.
-/

namespace SecureTunnel

/-! ## State -/

/-- The names in the directory of the destination. -/
inductive InstallName
  | active
  | previous
  /-- `.$binary.new.$$` -/
  | staged (pid : ℕ)
  /-- `.$binary.previous.$$` -/
  | previousTmp (pid : ℕ)
  deriving DecidableEq

/-- A file, as far as an installer is concerned. -/
structure Executable (Content : Type*) where
  content : Content
  mode : ℕ
  deriving DecidableEq

/-- The command that an installer has before it. -/
inductive InstallPlace
  /-- In `verify-artifact.sh`, before these checks. -/
  | verifying (checks : List ArtifactCheck)
  | source
  | digest
  | copying
  | chmod
  /-- Before these checks of the copy. -/
  | staged (checks : List Trait)
  /-- `[ -e "$destination" ]` -/
  | active
  | regular
  /-- Before these checks of the executable to be replaced. -/
  | existing (checks : List Trait)
  | linking
  | retaining
  | replacing
  /-- Before these checks of the new executable. -/
  | installed (checks : List Trait)
  /-- The trap of the exit. -/
  | cleaning (ok : Bool)
  | exited (ok : Bool)
  /-- It exited with an error of `rm` in that trap. -/
  | littered
  /-- It exited before the trap was set. -/
  | quit (ok : Bool)
  deriving DecidableEq

structure Installer (Content : Type*) where
  /-- `--require-identity` -/
  identity : Option Text
  dryRun : Bool
  /-- What its directory of the release holds now. -/
  artifact : Artifact Content
  /-- `expected_hash`, once it was looked up. -/
  expected : Text
  place : InstallPlace

structure Site (Content : Type*) where
  dir : Links InstallName (Executable Content)
  /-- The installers, by their process. -/
  installers : ℕ → Option (Installer Content)
  /-- The identities that were required, and the manifests in which a digest was looked
      up, by those that went on to copy. -/
  admitted : List (Option Text × Text)

/-- What can happen. -/
inductive InstallEvent (Content : Type*)
  | start (pid : ℕ) (identity : Option Text) (dryRun : Bool) (artifact : Artifact Content)
  /-- The directory of the release changes. -/
  | publish (pid : ℕ) (artifact : Artifact Content)
  /-- The next command runs. -/
  | proceed (pid : ℕ)
  /-- The next command fails. -/
  | fail (pid : ℕ)
  /-- `cp`, with the mode that a new file gets. -/
  | copy (pid mode : ℕ)
  /-- `cp` fails, and leaves something. -/
  | failCopy (pid : ℕ) (left : Executable Content)
  /-- A signal is trapped. -/
  | signal (pid : ℕ)
  /-- `rm` fails in a trap, and has removed the one or the other. -/
  | failCleanup (pid : ℕ) (staged previousTmp : Bool)
  /-- The process is killed, by a signal that is not trapped or with the machine. -/
  | kill (pid : ℕ)

namespace InstallPlace

/-- The trap is set, and no exit is under way. -/
def isTrapped : InstallPlace → Bool
  | copying | chmod | staged _ | active | regular | existing _ | linking | retaining | replacing
  | installed _ => true
  | _ => false

/-- A command fails, and with it the script. -/
def failed (place : InstallPlace) : InstallPlace :=
  if place.isTrapped then cleaning false else quit false

/-- The process has exited. -/
def isOver : InstallPlace → Bool
  | exited _ | littered | quit _ => true
  | _ => false

end InstallPlace

/-! ## Steps -/

namespace Site

variable {Content : Type*} (tools : Tools Content) (release : Release)

/-- An installer goes on. -/
def setInstaller (x : Site Content) (pid : ℕ) (installer : Option (Installer Content)) :
    Site Content :=
  { x with installers := Function.update x.installers pid installer }

def goto (x : Site Content) (pid : ℕ) (installer : Installer Content) (place : InstallPlace) :
    Site Content :=
  x.setInstaller pid (some { installer with place })

/-- `fail`, or a command that fails under `set -e`. -/
def fail (x : Site Content) (pid : ℕ) (installer : Installer Content) : Site Content :=
  x.goto pid installer installer.place.failed

/-- `cleanup` -/
def cleanup (x : Site Content) (pid : ℕ) : Site Content :=
  { x with dir := (x.dir.unlink (.staged pid)).unlink (.previousTmp pid) }

/-- `cleanup`, where `rm` fails. -/
def failCleanup (x : Site Content) (pid : ℕ) (staged previousTmp : Bool) : Site Content :=
  { x with dir :=
    (x.dir.tryUnlink staged (.staged pid)).tryUnlink previousTmp (.previousTmp pid) }

/-- One of the checks of a file, which goes on to those after it. -/
def check (x : Site Content) (pid : ℕ) (installer : Installer Content) (name : InstallName)
    (t : Trait) (next : InstallPlace) : Site Content :=
  if (x.dir.look name).content?.any fun file => tools.holds file.content t then
    x.goto pid installer next
  else x.fail pid installer

/-- A command that changes the directory, if it can. -/
def change (x : Site Content) (pid : ℕ) (installer : Installer Content)
    (dir : Option (Links InstallName (Executable Content))) (next : InstallPlace) : Site Content :=
  match dir with
  | some dir => { x with dir }.goto pid installer next
  | none => x.fail pid installer

/-- The next command of an installer. -/
def proceed (x : Site Content) (pid : ℕ) (installer : Installer Content) : Option (Site Content) :=
  match installer.place with
  | .verifying [] => some (x.goto pid installer .source)
  | .verifying (c :: checks) => some <|
    if installer.artifact.passes tools c then x.goto pid installer (.verifying checks)
    else x.fail pid installer
  | .source => some <|
    if (installer.artifact.file release).isSome then x.goto pid installer .digest
    else x.fail pid installer
  | .digest =>
    match installer.artifact.manifest with
    | none => some (x.fail pid installer)
    | some manifest => some <|
      if expectedHash release manifest = [] then x.fail pid installer
      else if installer.dryRun then x.goto pid installer (.quit true)
      else
        { x with admitted := x.admitted ++ [(installer.identity, manifest)] }.goto pid
          { installer with expected := expectedHash release manifest } .copying
  | .chmod =>
    match x.dir.look (.staged pid) with
    | .file file => some <|
      x.change pid installer (x.dir.put (.staged pid) { file with mode := 0o755 })
        (.staged (.digest installer.expected :: verifyIdentity installer.identity))
    | _ => some (x.fail pid installer)
  | .staged [] => some (x.goto pid installer .active)
  | .staged (t :: checks) => some (x.check tools pid installer (.staged pid) t (.staged checks))
  | .active => some <|
    if (x.dir.look .active).isThere then x.goto pid installer .regular
    else x.goto pid installer .replacing
  | .regular => some <|
    if (x.dir.look .active).content?.isSome then
      x.goto pid installer (.existing (verifyIdentity installer.identity))
    else x.fail pid installer
  | .existing [] => some (x.goto pid installer .linking)
  | .existing (t :: checks) => some (x.check tools pid installer .active t (.existing checks))
  | .linking => some (x.change pid installer (x.dir.link .active (.previousTmp pid)) .retaining)
  | .retaining => some <|
    x.change pid installer (x.dir.rename (.previousTmp pid) .previous) .replacing
  | .replacing => some <|
    x.change pid installer (x.dir.rename (.staged pid) .active)
      (.installed [.digest installer.expected, .signed])
  | .installed [] => some (x.goto pid installer (.cleaning true))
  | .installed (t :: checks) => some (x.check tools pid installer .active t (.installed checks))
  | .cleaning ok => some ((x.cleanup pid).goto pid installer (.exited ok))
  | .copying | .exited _ | .littered | .quit _ => none

def step (x : Site Content) : InstallEvent Content → Option (Site Content)
  | .start pid identity dryRun artifact =>
    if (x.installers pid).all fun installer => installer.place.isOver then
      some (x.setInstaller pid (some
        ⟨identity, dryRun, artifact, [], .verifying (verifyArtifact identity)⟩))
    else none
  | .publish pid artifact =>
    (x.installers pid).map fun installer =>
      x.setInstaller pid (some { installer with artifact })
  | .proceed pid => (x.installers pid).bind fun installer => x.proceed tools release pid installer
  | .fail pid =>
    (x.installers pid).bind fun installer =>
      match installer.place with
      | .cleaning _ | .exited _ | .littered | .quit _ => none
      | _ => some (x.fail pid installer)
  | .copy pid mode =>
    (x.installers pid).bind fun installer =>
      if installer.place = .copying then
        some (x.change pid installer ((installer.artifact.file release).bind fun content =>
          x.dir.put (.staged pid) ⟨content, mode⟩) .chmod)
      else none
  | .failCopy pid left =>
    (x.installers pid).bind fun installer =>
      if installer.place = .copying then
        some (x.change pid installer (x.dir.put (.staged pid) left) (.cleaning false))
      else none
  | .signal pid =>
    (x.installers pid).bind fun installer =>
      if installer.place.isTrapped then some (x.cleanup pid) else none
  | .failCleanup pid staged previousTmp =>
    (x.installers pid).bind fun installer =>
      match installer.place with
      | .cleaning _ => some ((x.failCleanup pid staged previousTmp).goto pid installer .littered)
      -- Under `set -e` the trap of a signal exits, and the trap of the exit runs.
      | place =>
        if place.isTrapped then
          some ((x.failCleanup pid staged previousTmp).goto pid installer (.cleaning false))
        else none
  | .kill pid => (x.installers pid).map fun _ => x.setInstaller pid none

end Site

/-- Installers on one destination. At first there is none, and nothing is left of any. -/
def installation {Content : Type*} (tools : Tools Content) (release : Release)
    (dir : Links InstallName (Executable Content)) :
    EventSystem (Site Content) (InstallEvent Content) where
  init x := (∀ pid, dir.look (.staged pid) = .nothing ∧ dir.look (.previousTmp pid) = .nothing) ∧
    x = ⟨dir, fun _ => none, []⟩
  step := Site.step tools release

/-! ## What is vouched for -/

/-- The checks that make an executable fit to be kept for a rollback. -/
def rollbackTraits : List Trait := [.signed, .universal]

/-- The checks of the copy. -/
def stagedTraits (identity : Option Text) (expected : Text) : List Trait :=
  .digest expected :: verifyIdentity identity

namespace InstallPlace

/-- What is still to be checked of the copy, once that is complete. -/
def toCheck : InstallPlace → Option (List Trait)
  | staged checks => some checks
  | active | regular | existing _ | linking | retaining | replacing => some []
  | _ => none

/-- What is still to be checked of the executable to be replaced, once it was found. -/
def toCheckActive : InstallPlace → Option (List Trait)
  | existing checks => some checks
  | linking => some []
  | _ => none

/-- The active executable was looked at, or there was none. -/
def hasLooked : InstallPlace → Bool
  | existing _ | linking | retaining | replacing => true
  | _ => false

theorem toCheck_eq_none {place : InstallPlace} (h : place.isTrapped = false) :
    place.toCheck = none ∧ place.toCheckActive = none := by
  cases place <;> first | exact ⟨rfl, rfl⟩ | cases h

theorem hasLooked_eq_false {place : InstallPlace} (h : place.toCheck = none) :
    place.hasLooked = false := by
  cases place <;> first | rfl | cases h

end InstallPlace

section Vouched

variable {Content : Type*} (tools : Tools Content) (release : Release)

/-- The executable has passed the checks of an installer that was admitted. -/
def Vetted (admitted : List (Option Text × Text)) (file : Executable Content) : Prop :=
  file.mode = 0o755 ∧ ∃ identity manifest, (identity, manifest) ∈ admitted ∧
    ∀ t ∈ stagedTraits identity (expectedHash release manifest), tools.holds file.content t = true

/-- The executable has been the active one, and was fit to be kept for a rollback. -/
def Retained (dir : Links InstallName (Executable Content)) (admitted : List (Option Text × Text))
    (file : Executable Content) : Prop :=
  (dir.look .active = .file file ∨ Vetted tools release admitted file) ∧
    ∀ t ∈ rollbackTraits, tools.holds file.content t = true

/-- What an installer has found out, at each of its places. -/
structure Installer.Sound (x : Site Content) (pid : ℕ) (installer : Installer Content) : Prop where
  admitted : installer.place.isTrapped = true → ∃ manifest,
    (installer.identity, manifest) ∈ x.admitted ∧ installer.expected = expectedHash release manifest
  /-- The copy has passed the checks that are behind, unless a signal has removed it. -/
  staged : ∀ checks, installer.place.toCheck = some checks → ∀ file,
    x.dir.look (.staged pid) = .file file → file.mode = 0o755 ∧
      ∀ t ∈ stagedTraits installer.identity installer.expected,
        t ∈ checks ∨ tools.holds file.content t = true
  /-- So has the active executable, even if it is another one by now. -/
  active : ∀ checks, installer.place.toCheckActive = some checks → ∀ file,
    x.dir.look .active = .file file →
      ∀ t ∈ rollbackTraits, t ∈ checks ∨ tools.holds file.content t = true
  looked : installer.place.hasLooked = true → (x.dir.look .active).isDirectory = false
  gone : ∀ ok, installer.place = .exited ok →
    x.dir.look (.staged pid) = .nothing ∧ x.dir.look (.previousTmp pid) = .nothing

/-- How the directory compares with the one at first, and the active path with what it
    was like at a time since. -/
structure Site.Inv (dir : Links InstallName (Executable Content))
    (look : Look (Executable Content)) (x : Site Content) : Prop where
  sole : ∀ pid, x.dir.Sole (.staged pid)
  staged : ∀ pid, x.dir.look (.staged pid) = .nothing ∨
    ∃ file, x.dir.look (.staged pid) = .file file
  previousTmp : ∀ pid, x.dir.look (.previousTmp pid) = .nothing ∨
    ∃ file, x.dir.look (.previousTmp pid) = .file file ∧ Retained tools release dir x.admitted file
  active : x.dir.look .active = dir.look .active ∨
    ∃ file, x.dir.look .active = .file file ∧ Vetted tools release x.admitted file
  previous : x.dir.look .previous = dir.look .previous ∨
    ∃ file, x.dir.look .previous = .file file ∧ Retained tools release dir x.admitted file
  inside : ∀ name ∈ x.dir.inside, name ∈ dir.inside ∨
    (dir.look .previous).isDirectory = true ∧ ∃ pid, name = .previousTmp pid
  since : x.dir.look .active = look ∨
    ∃ file, x.dir.look .active = .file file ∧ Vetted tools release x.admitted file
  sound : ∀ pid installer, x.installers pid = some installer →
    installer.Sound tools release x pid

end Vouched

section Steps

variable {Content : Type*} {tools : Tools Content} {release : Release}
  {dir : Links InstallName (Executable Content)} {x x' : Site Content} {pid : ℕ}
  {installer installer' : Installer Content} {file : Executable Content}
  {look : Look (Executable Content)}
  {admitted admitted' : List (Option Text × Text)}

theorem rollbackTraits_subset (identity : Option Text) (expected : Text) :
    rollbackTraits ⊆ stagedTraits identity expected :=
  fun _ h => List.mem_cons_of_mem _ (List.mem_append_left _ h)

theorem Vetted.mono (h : Vetted tools release admitted file) (hle : admitted ⊆ admitted') :
    Vetted tools release admitted' file := by
  obtain ⟨hmode, identity, manifest, hmem, hholds⟩ := h
  exact ⟨hmode, identity, manifest, hle hmem, hholds⟩

theorem Vetted.holds (h : Vetted tools release admitted file) :
    ∀ t ∈ rollbackTraits, tools.holds file.content t = true := by
  obtain ⟨-, identity, manifest, -, hholds⟩ := h
  exact fun t ht => hholds t (rollbackTraits_subset _ _ ht)

theorem Retained.mono (h : Retained tools release dir admitted file) (hle : admitted ⊆ admitted') :
    Retained tools release dir admitted' file := ⟨h.1.imp_right (·.mono hle), h.2⟩

namespace Installer.Sound

/-- What an installer has found out stays so when another one changes the directory:
    the names of this one look the same, and the active executable is fit for a
    rollback if it is another one. -/
theorem frame (h : installer.Sound tools release x pid) (hadmitted : x.admitted ⊆ x'.admitted)
    (hstaged : x'.dir.look (.staged pid) = x.dir.look (.staged pid))
    (hprevious : x'.dir.look (.previousTmp pid) = x.dir.look (.previousTmp pid))
    (hactive : x'.dir.look .active = x.dir.look .active ∨ ∃ file,
      x'.dir.look .active = .file file ∧
      ∀ t ∈ rollbackTraits, tools.holds file.content t = true) :
    installer.Sound tools release x' pid where
  admitted htrapped := by
    obtain ⟨manifest, hmem, hexpected⟩ := h.admitted htrapped
    exact ⟨manifest, hadmitted hmem, hexpected⟩
  staged checks hchecks file hfile := h.staged checks hchecks file (hstaged ▸ hfile)
  active checks hchecks file hfile t ht := by
    rcases hactive with hactive | ⟨file', hactive, hholds⟩
    · exact h.active checks hchecks file (hactive ▸ hfile) t ht
    · obtain rfl : file' = file := Look.file.inj (hactive.symm.trans hfile)
      exact .inr (hholds t ht)
  looked hlooked := by
    rcases hactive with hactive | ⟨file', hactive, -⟩
    · rw [hactive]
      exact h.looked hlooked
    · rw [hactive]
      rfl
  gone ok hplace := by
    rw [hstaged, hprevious]
    exact h.gone ok hplace

/-- An installer at a place where something may be known of the copy only. -/
theorem of_staged (hadmitted : installer.place.isTrapped = true → ∃ manifest,
      (installer.identity, manifest) ∈ x.admitted ∧
        installer.expected = expectedHash release manifest)
    (hstaged : ∀ checks, installer.place.toCheck = some checks → ∀ file,
      x.dir.look (.staged pid) = .file file → file.mode = 0o755 ∧
        ∀ t ∈ stagedTraits installer.identity installer.expected,
          t ∈ checks ∨ tools.holds file.content t = true)
    (hactive : installer.place.toCheckActive = none)
    (hlooked : installer.place.hasLooked = true → (x.dir.look .active).isDirectory = false)
    (hexited : ∀ ok, installer.place ≠ .exited ok) : installer.Sound tools release x pid where
  admitted := hadmitted
  staged := hstaged
  active checks h := by
    rw [hactive] at h
    cases h
  looked := hlooked
  gone ok h := absurd h (hexited ok)

/-- An installer at a place where nothing is known of the files. -/
theorem of_unchecked (hadmitted : installer.place.isTrapped = true → ∃ manifest,
      (installer.identity, manifest) ∈ x.admitted ∧
        installer.expected = expectedHash release manifest)
    (hstaged : installer.place.toCheck = none) (hactive : installer.place.toCheckActive = none)
    (hexited : ∀ ok, installer.place ≠ .exited ok) : installer.Sound tools release x pid := by
  refine of_staged hadmitted (fun checks h => ?_) hactive (fun h => ?_) hexited
  · rw [hstaged] at h
    cases h
  · rw [InstallPlace.hasLooked_eq_false hstaged] at h
    cases h

/-- An installer at a place where nothing is known yet, or any more. -/
theorem of_idle (htrapped : installer.place.isTrapped = false)
    (hexited : ∀ ok, installer.place ≠ .exited ok) : installer.Sound tools release x pid := by
  obtain ⟨hstaged, hactive⟩ := InstallPlace.toCheck_eq_none htrapped
  refine of_unchecked (fun h => ?_) hstaged hactive hexited
  rw [htrapped] at h
  cases h

/-- An installer that has removed its files. -/
theorem of_gone (htrapped : installer.place.isTrapped = false)
    (hgone : x.dir.look (.staged pid) = .nothing ∧ x.dir.look (.previousTmp pid) = .nothing) :
    installer.Sound tools release x pid where
  admitted h := by
    rw [htrapped] at h
    cases h
  staged checks h := by
    rw [(InstallPlace.toCheck_eq_none htrapped).1] at h
    cases h
  active checks h := by
    rw [(InstallPlace.toCheck_eq_none htrapped).2] at h
    cases h
  looked h := by
    rw [InstallPlace.hasLooked_eq_false (InstallPlace.toCheck_eq_none htrapped).1] at h
    cases h
  gone _ _ := hgone

/-- It goes on, and what is to be checked is what was. -/
theorem goto (h : installer.Sound tools release x pid) {place : InstallPlace}
    (htrapped : installer.place.isTrapped = true) (hexited : ∀ ok, place ≠ .exited ok)
    (hstaged : place.toCheck = none ∨ place.toCheck = installer.place.toCheck)
    (hactive : place.toCheckActive = none ∨ place.toCheckActive = installer.place.toCheckActive)
    (hlooked : place.hasLooked = true → (x.dir.look .active).isDirectory = false) :
    { installer with place }.Sound tools release x pid where
  admitted _ := h.admitted htrapped
  staged checks hchecks := by
    rcases hstaged with hnone | hsame
    · cases hnone.symm.trans hchecks
    · exact h.staged checks (hsame.symm.trans hchecks)
  active checks hchecks := by
    rcases hactive with hnone | hsame
    · cases hnone.symm.trans hchecks
    · exact h.active checks (hsame.symm.trans hchecks)
  looked := hlooked
  gone ok hplace := absurd hplace (hexited ok)

end Installer.Sound

namespace Site.Inv

theorem initial (h : ∀ pid, dir.look (.staged pid) = .nothing ∧
    dir.look (.previousTmp pid) = .nothing) :
    Inv tools release dir (dir.look .active) ⟨dir, fun _ => none, []⟩ where
  sole pid := Links.sole_of_nothing (h pid).1
  staged pid := .inl (h pid).1
  previousTmp pid := .inl (h pid).2
  active := .inl rfl
  previous := .inl rfl
  inside _ hname := .inl hname
  since := .inl rfl
  sound pid installer hinstaller := by cases hinstaller

/-- The active path is compared with what it is like now. -/
theorem now (h : x.Inv tools release dir look) : x.Inv tools release dir (x.dir.look .active) :=
  { h with since := .inl rfl }

/-- One installer goes on, and touches no name of another one. -/
theorem move (h : x.Inv tools release dir look) {dir' : Links InstallName (Executable Content)}
    {next : Option (Installer Content)} (hadmitted : x.admitted ⊆ admitted')
    (hsole : ∀ q, dir'.Sole (.staged q))
    (hothers : ∀ q, q ≠ pid → dir'.look (.staged q) = x.dir.look (.staged q) ∧
      dir'.look (.previousTmp q) = x.dir.look (.previousTmp q))
    (hstaged : dir'.look (.staged pid) = .nothing ∨ ∃ file, dir'.look (.staged pid) = .file file)
    (hpreviousTmp : dir'.look (.previousTmp pid) = .nothing ∨
      ∃ file, dir'.look (.previousTmp pid) = .file file ∧ Retained tools release dir admitted' file)
    (hactive : dir'.look .active = x.dir.look .active ∨
      ∃ file, dir'.look .active = .file file ∧ Vetted tools release admitted' file)
    (hprevious : dir'.look .previous = x.dir.look .previous ∨
      ∃ file, dir'.look .previous = .file file ∧ Retained tools release dir admitted' file)
    (hinside : dir'.inside = x.dir.inside ∨ (x.dir.look .previous).isDirectory = true ∧
      dir'.inside = x.dir.inside ++ [.previousTmp pid])
    (hsound : ∀ installer, next = some installer → installer.Sound tools release
      ⟨dir', Function.update x.installers pid next, admitted'⟩ pid) :
    Inv tools release dir look ⟨dir', Function.update x.installers pid next, admitted'⟩ where
  sole := hsole
  staged q := by
    by_cases heq : q = pid
    · rw [heq]
      exact hstaged
    · dsimp only
      rw [(hothers q heq).1]
      exact h.staged q
  previousTmp q := by
    by_cases heq : q = pid
    · rw [heq]
      exact hpreviousTmp
    · dsimp only
      rw [(hothers q heq).2]
      exact (h.previousTmp q).imp_right fun ⟨file, hfile, hretained⟩ =>
        ⟨file, hfile, hretained.mono hadmitted⟩
  active := by
    rcases hactive with hactive | hactive
    · dsimp only
      rw [hactive]
      exact h.active.imp_right fun ⟨file, hfile, hvetted⟩ => ⟨file, hfile, hvetted.mono hadmitted⟩
    · exact .inr hactive
  previous := by
    rcases hprevious with hprevious | hprevious
    · dsimp only
      rw [hprevious]
      exact h.previous.imp_right fun ⟨file, hfile, hretained⟩ =>
        ⟨file, hfile, hretained.mono hadmitted⟩
    · exact .inr hprevious
  inside name hname := by
    dsimp only at hname
    rcases hinside with hsame | ⟨hdirectory, hmore⟩
    · exact h.inside name (hsame ▸ hname)
    · rw [hmore] at hname
      rcases List.mem_append.1 hname with hname | hname
      · exact h.inside name hname
      -- What is a directory now was one at first.
      · refine .inr ⟨?_, pid, List.mem_singleton.1 hname⟩
        rcases h.previous with hsame | ⟨file, hfile, -⟩
        · exact hsame ▸ hdirectory
        · rw [hfile] at hdirectory
          cases hdirectory
  since := by
    rcases hactive with hactive | hactive
    · dsimp only
      rw [hactive]
      exact h.since.imp_right fun ⟨file, hfile, hvetted⟩ => ⟨file, hfile, hvetted.mono hadmitted⟩
    · exact .inr hactive
  sound q installer hinstaller := by
    dsimp only at hinstaller
    by_cases heq : q = pid
    · subst heq
      rw [Function.update_self] at hinstaller
      exact hsound installer hinstaller
    · rw [Function.update_of_ne heq] at hinstaller
      exact (h.sound q installer hinstaller).frame hadmitted (hothers q heq).1 (hothers q heq).2
        (hactive.imp_right fun ⟨file, hfile, hvetted⟩ => ⟨file, hfile, hvetted.holds⟩)

/-- One installer goes on, and the directory stays as it is. -/
theorem setInstaller (h : x.Inv tools release dir look) {next : Option (Installer Content)}
    (hadmitted : x.admitted ⊆ admitted')
    (hsound : ∀ installer, next = some installer → installer.Sound tools release
      ⟨x.dir, Function.update x.installers pid next, admitted'⟩ pid) :
    Inv tools release dir look ⟨x.dir, Function.update x.installers pid next, admitted'⟩ :=
  h.move hadmitted h.sole (fun _ _ => ⟨rfl, rfl⟩) (h.staged pid)
    ((h.previousTmp pid).imp_right fun ⟨file, hfile, hretained⟩ =>
      ⟨file, hfile, hretained.mono hadmitted⟩) (.inl rfl) (.inl rfl) (.inl rfl) hsound

theorem goto (h : x.Inv tools release dir look) {place : InstallPlace}
    (hsound : { installer with place }.Sound tools release x pid) :
    (x.goto pid installer place).Inv tools release dir look :=
  h.setInstaller (List.Subset.refl _) fun _ heq =>
    Option.some.inj heq ▸ hsound.frame (List.Subset.refl _) rfl rfl (.inl rfl)

theorem fail (h : x.Inv tools release dir look) :
    (x.fail pid installer).Inv tools release dir look := by
  refine h.goto (.of_idle ?_ fun ok => ?_)
  all_goals
    rw [InstallPlace.failed]
    split <;> first | rfl | exact InstallPlace.noConfusion

/-! The commands that change the directory. -/

theorem cleanup_look (h : x.Inv tools release dir look) :
    (x.cleanup pid).dir.look (.staged pid) = .nothing ∧
      (x.cleanup pid).dir.look (.previousTmp pid) = .nothing := by
  have hstaged : x.dir.look (.staged pid) ≠ .directory := by
    rcases h.staged pid with hlook | ⟨file, hlook⟩ <;> simp [hlook]
  have hprevious : (x.dir.unlink (.staged pid)).look (.previousTmp pid) ≠ .directory := by
    rw [Links.look_unlink_of_ne InstallName.noConfusion]
    rcases h.previousTmp pid with hlook | ⟨file, hlook, -⟩ <;> simp [hlook]
  refine ⟨?_, Links.look_unlink_self hprevious⟩
  rw [Site.cleanup, Links.look_unlink_of_ne InstallName.noConfusion]
  exact Links.look_unlink_self hstaged

theorem look_failCleanup_of_ne {staged previousTmp : Bool} {name : InstallName}
    (hstaged : name ≠ .staged pid) (hprevious : name ≠ .previousTmp pid) :
    (x.failCleanup pid staged previousTmp).dir.look name = x.dir.look name := by
  rw [Site.failCleanup, Links.look_tryUnlink_of_ne hprevious, Links.look_tryUnlink_of_ne hstaged]

/-- Whatever `rm` has removed, these are names of its installer. -/
theorem failCleanup (h : x.Inv tools release dir look) {staged previousTmp : Bool}
    {next : Option (Installer Content)}
    (hsound : ∀ installer, next = some installer → installer.Sound tools release
      ⟨(x.failCleanup pid staged previousTmp).dir, Function.update x.installers pid next,
        x.admitted⟩ pid) :
    Inv tools release dir look
      ⟨(x.failCleanup pid staged previousTmp).dir, Function.update x.installers pid next,
        x.admitted⟩ := by
  refine h.move (List.Subset.refl _) (fun q => ((h.sole q).tryUnlink _).tryUnlink _)
    (fun q hq => ?_) ?_ ?_
    (.inl (look_failCleanup_of_ne InstallName.noConfusion InstallName.noConfusion))
    (.inl (look_failCleanup_of_ne InstallName.noConfusion InstallName.noConfusion))
    (.inl (Links.inside_tryUnlink.trans Links.inside_tryUnlink)) hsound
  · exact ⟨look_failCleanup_of_ne (mt InstallName.staged.inj hq) InstallName.noConfusion,
      look_failCleanup_of_ne InstallName.noConfusion (mt InstallName.previousTmp.inj hq)⟩
  · rw [Site.failCleanup, Links.look_tryUnlink_of_ne InstallName.noConfusion]
    rcases Links.look_tryUnlink_self (d := x.dir) with hgone | hsame
    · exact .inl hgone
    · rw [hsame]
      exact h.staged pid
  · rw [Site.failCleanup]
    rcases Links.look_tryUnlink_self (d := x.dir.tryUnlink staged _) with hgone | hsame
    · exact .inl hgone
    · rw [hsame, Links.look_tryUnlink_of_ne InstallName.noConfusion]
      exact h.previousTmp pid

theorem cleanup_eq : x.cleanup pid = x.failCleanup pid true true := rfl

theorem look_cleanup_of_ne {name : InstallName} (hstaged : name ≠ .staged pid)
    (hprevious : name ≠ .previousTmp pid) : (x.cleanup pid).dir.look name = x.dir.look name := by
  rw [cleanup_eq, look_failCleanup_of_ne hstaged hprevious]

theorem cleanup (h : x.Inv tools release dir look) {next : Option (Installer Content)}
    (hsound : ∀ installer, next = some installer → installer.Sound tools release
      ⟨(x.cleanup pid).dir, Function.update x.installers pid next, x.admitted⟩ pid) :
    Inv tools release dir look
      ⟨(x.cleanup pid).dir, Function.update x.installers pid next, x.admitted⟩ := by
  rw [cleanup_eq] at hsound ⊢
  exact h.failCleanup hsound

/-- A signal removes the copy and the link, and nothing else is to be known of them. -/
theorem signal (h : x.Inv tools release dir look) (hinstaller : x.installers pid = some installer) :
    (x.cleanup pid).Inv tools release dir look := by
  have hsame : Function.update x.installers pid (some installer) = x.installers := by
    rw [← hinstaller, Function.update_eq_self]
  have hsound := h.sound pid installer hinstaller
  suffices hinv : Inv tools release dir look
      ⟨(x.cleanup pid).dir, Function.update x.installers pid (some installer), x.admitted⟩ by
    rwa [hsame] at hinv
  refine h.cleanup fun _ heq => ?_
  obtain rfl := Option.some.inj heq
  have hactive : (x.cleanup pid).dir.look .active = x.dir.look .active :=
    look_cleanup_of_ne InstallName.noConfusion InstallName.noConfusion
  refine ⟨hsound.admitted, fun checks _ file hfile => ?_, fun checks hchecks file hfile => ?_,
    fun hlooked => ?_, fun ok _ => h.cleanup_look⟩
  · rw [h.cleanup_look.1] at hfile
    cases hfile
  · rw [hactive] at hfile
    exact hsound.active checks hchecks file hfile
  · rw [hactive]
    exact hsound.looked hlooked

/-- What is written to the copy is under no other name. -/
theorem put (h : x.Inv tools release dir look) {dir' : Links InstallName (Executable Content)}
    (hput : x.dir.put (.staged pid) file = some dir') {next : Option (Installer Content)}
    (hsound : ∀ installer, next = some installer → installer.Sound tools release
      ⟨dir', Function.update x.installers pid next, x.admitted⟩ pid) :
    Inv tools release dir look ⟨dir', Function.update x.installers pid next, x.admitted⟩ := by
  have hne {name : InstallName} (hname : name ≠ .staged pid) : dir'.look name = x.dir.look name :=
    Links.look_put_of_ne hput (h.sole pid) hname
  refine h.move (List.Subset.refl _) (fun q => (h.sole q).put hput) (fun q hq => ?_)
    (.inr ⟨file, Links.look_put_self hput⟩) ?_ (.inl (hne InstallName.noConfusion))
    (.inl (hne InstallName.noConfusion)) (.inl (Links.inside_put hput)) hsound
  · exact ⟨hne (mt InstallName.staged.inj hq), hne InstallName.noConfusion⟩
  · rw [hne InstallName.noConfusion]
    exact h.previousTmp pid

/-- The active executable is what it was at first, or has been installed. -/
theorem retained (h : x.Inv tools release dir look) (hactive : x.dir.look .active = .file file)
    (hholds : ∀ t ∈ rollbackTraits, tools.holds file.content t = true) :
    Retained tools release dir x.admitted file := by
  rcases h.active with heq | ⟨file', hfile', hvetted⟩
  · exact ⟨.inl (heq.symm.trans hactive), hholds⟩
  · obtain rfl : file' = file := Look.file.inj (hfile'.symm.trans hactive)
    exact ⟨.inr hvetted, hholds⟩

theorem link (h : x.Inv tools release dir look) {dir' : Links InstallName (Executable Content)}
    (hlink : x.dir.link .active (.previousTmp pid) = some dir')
    (hholds : ∀ file, x.dir.look .active = .file file →
      ∀ t ∈ rollbackTraits, tools.holds file.content t = true)
    {next : Option (Installer Content)}
    (hsound : ∀ installer, next = some installer → installer.Sound tools release
      ⟨dir', Function.update x.installers pid next, x.admitted⟩ pid) :
    Inv tools release dir look ⟨dir', Function.update x.installers pid next, x.admitted⟩ := by
  obtain ⟨⟨file, hactive⟩, -, rfl⟩ := Links.link_cases hlink
  have hne {name : InstallName} (hname : name ≠ .previousTmp pid) :
      (x.dir.copy .active (.previousTmp pid)).look name = x.dir.look name :=
    Links.look_copy_of_ne hname
  refine h.move (List.Subset.refl _)
    (fun q => (h.sole q).copy InstallName.noConfusion InstallName.noConfusion) (fun q hq => ?_) ?_
    (.inr ⟨file, Links.look_copy_self.trans hactive, h.retained hactive (hholds file hactive)⟩)
    (.inl (hne InstallName.noConfusion)) (.inl (hne InstallName.noConfusion)) (.inl rfl) hsound
  · exact ⟨hne InstallName.noConfusion, hne (mt InstallName.previousTmp.inj hq)⟩
  · rw [hne InstallName.noConfusion]
    exact h.staged pid

theorem retain (h : x.Inv tools release dir look) {dir' : Links InstallName (Executable Content)}
    (hrename : x.dir.rename (.previousTmp pid) .previous = some dir')
    {next : Option (Installer Content)}
    (hsound : ∀ installer, next = some installer → installer.Sound tools release
      ⟨dir', Function.update x.installers pid next, x.admitted⟩ pid) :
    Inv tools release dir look ⟨dir', Function.update x.installers pid next, x.admitted⟩ := by
  have hne {name : InstallName} (hold : name ≠ .previousTmp pid) (hnew : name ≠ .previous) :
      dir'.look name = x.dir.look name := Links.look_rename_of_ne hrename hold hnew
  refine h.move (List.Subset.refl _)
    (fun q => (h.sole q).rename hrename InstallName.noConfusion InstallName.noConfusion)
    (fun q hq => ?_) ?_ ?_ (.inl (hne InstallName.noConfusion InstallName.noConfusion)) ?_
    (Links.inside_rename hrename) hsound
  · exact ⟨hne InstallName.noConfusion InstallName.noConfusion,
      hne (mt InstallName.previousTmp.inj hq) InstallName.noConfusion⟩
  · rw [hne InstallName.noConfusion InstallName.noConfusion]
    exact h.staged pid
  · rcases Links.look_rename_old hrename with hgone | hsame
    · exact .inl hgone
    · rw [hsame]
      exact h.previousTmp pid
  · rcases Links.look_rename_new hrename InstallName.noConfusion with hnew | ⟨-, hnew⟩
    · rw [hnew]
      exact .inr ((h.previousTmp pid).resolve_left (Links.ne_nothing_of_rename hrename))
    · exact .inl hnew

/-- The copy, of which nothing is left to check, becomes the active executable. -/
theorem replace (h : x.Inv tools release dir look) {dir' : Links InstallName (Executable Content)}
    (hinstaller : x.installers pid = some installer) (hplace : installer.place = .replacing)
    (hrename : x.dir.rename (.staged pid) .active = some dir')
    {next : Option (Installer Content)}
    (hsound : ∀ installer, next = some installer → installer.Sound tools release
      ⟨dir', Function.update x.installers pid next, x.admitted⟩ pid) :
    Inv tools release dir look ⟨dir', Function.update x.installers pid next, x.admitted⟩ := by
  have hne {name : InstallName} (hold : name ≠ .staged pid) (hnew : name ≠ .active) :
      dir'.look name = x.dir.look name := Links.look_rename_of_ne hrename hold hnew
  have hself := h.sound pid installer hinstaller
  refine h.move (List.Subset.refl _) (fun q => ?_) (fun q hq => ?_) ?_ ?_ ?_
    (.inl (hne InstallName.noConfusion InstallName.noConfusion)) (.inl ?_) hsound
  · by_cases heq : q = pid
    · subst heq
      rcases Links.rename_cases hrename with ⟨-, -, rfl⟩ | ⟨-, rfl⟩ | ⟨-, rfl⟩
      · exact h.sole q
      · exact Links.sole_of_nothing (Links.look_enter.trans Links.look_remove_self)
      · exact Links.sole_of_nothing Links.look_remove_self
    · exact (h.sole q).rename hrename (mt InstallName.staged.inj (Ne.symm heq))
        InstallName.noConfusion
  · exact ⟨hne (mt InstallName.staged.inj hq) InstallName.noConfusion,
      hne InstallName.noConfusion InstallName.noConfusion⟩
  · rcases Links.look_rename_old hrename with hgone | hsame
    · exact .inl hgone
    · rw [hsame]
      exact h.staged pid
  · rw [hne InstallName.noConfusion InstallName.noConfusion]
    exact h.previousTmp pid
  · rcases Links.look_rename_new hrename InstallName.noConfusion with hnew | ⟨-, hnew⟩
    · obtain ⟨file, hfile⟩ := (h.staged pid).resolve_left (Links.ne_nothing_of_rename hrename)
      obtain ⟨manifest, hmem, hexpected⟩ := hself.admitted (by rw [hplace]; rfl)
      obtain ⟨hmode, hholds⟩ := hself.staged [] (by rw [hplace]; rfl) file hfile
      refine .inr ⟨file, hnew.trans hfile, hmode, installer.identity, manifest, hmem,
        fun t ht => ?_⟩
      rw [← hexpected] at ht
      exact (hholds t ht).resolve_left List.not_mem_nil
    · exact .inl hnew
  · refine (Links.inside_rename hrename).resolve_right fun hinside => ?_
    cases (hself.looked (by rw [hplace]; rfl)).symm.trans hinside.1

/-- One check of a file. -/
theorem check (h : x.Inv tools release dir look) {name : InstallName} {t : Trait}
    {next : InstallPlace}
    (hsound : (∀ file, x.dir.look name = .file file → tools.holds file.content t = true) →
      { installer with place := next }.Sound tools release x pid) :
    (x.check tools pid installer name t next).Inv tools release dir look := by
  rw [Site.check]
  split
  · rename_i hany
    refine h.goto (hsound fun file hfile => ?_)
    rw [hfile] at hany
    exact hany
  · exact h.fail

/-- A command that changes the directory, or fails. -/
theorem change (h : x.Inv tools release dir look)
    {changed : Option (Links InstallName (Executable Content))} {next : InstallPlace}
    (hchanged : ∀ dir', changed = some dir' → Inv tools release dir look
      ⟨dir', Function.update x.installers pid (some { installer with place := next }),
        x.admitted⟩) : (x.change pid installer changed next).Inv tools release dir look := by
  cases changed with
  | none => exact h.fail
  | some dir' => exact hchanged dir' rfl

/-- The next command of an installer. -/
theorem proceed (h : x.Inv tools release dir look) (hinstaller : x.installers pid = some installer)
    (hstep : x.proceed tools release pid installer = some x') : x'.Inv tools release dir look := by
  have hself := h.sound pid installer hinstaller
  have hidle {place : InstallPlace} (htrapped : place.isTrapped = false)
      (hexited : ∀ ok, place ≠ .exited ok) :
      (x.goto pid installer place).Inv tools release dir look :=
    h.goto (.of_idle htrapped hexited)
  rw [Site.proceed.eq_def] at hstep
  split at hstep
  case h_1 hplace =>
    obtain rfl := Option.some.inj hstep
    exact hidle rfl fun _ => InstallPlace.noConfusion
  case h_2 c checks hplace =>
    obtain rfl := Option.some.inj hstep
    split
    · exact hidle rfl fun _ => InstallPlace.noConfusion
    · exact h.fail
  case h_3 hplace =>
    obtain rfl := Option.some.inj hstep
    split
    · exact hidle rfl fun _ => InstallPlace.noConfusion
    · exact h.fail
  case h_4 hplace =>
    split at hstep
    · obtain rfl := Option.some.inj hstep
      exact h.fail
    · rename_i manifest hmanifest
      obtain rfl := Option.some.inj hstep
      split_ifs
      · exact h.fail
      · exact hidle rfl fun _ => InstallPlace.noConfusion
      · refine h.setInstaller (List.subset_append_left _ _) fun _ heq => ?_
        obtain rfl := Option.some.inj heq
        exact .of_unchecked (fun _ => ⟨manifest, List.mem_append_right _ List.mem_cons_self, rfl⟩)
          rfl rfl fun _ => InstallPlace.noConfusion
  case h_5 hplace =>
    split at hstep
    · rename_i file hfile
      obtain rfl := Option.some.inj hstep
      refine h.change fun dir' hput => h.put hput fun _ heq => ?_
      obtain rfl := Option.some.inj heq
      refine .of_staged (fun _ => hself.admitted (by rw [hplace]; rfl))
        (fun checks hchecks file' hfile' => ?_) rfl Bool.noConfusion
        fun _ => InstallPlace.noConfusion
      obtain rfl := Option.some.inj hchecks
      obtain rfl := Look.file.inj ((Links.look_put_self hput).symm.trans hfile')
      exact ⟨rfl, fun t ht => .inl ht⟩
    · obtain rfl := Option.some.inj hstep
      exact h.fail
  case h_6 hplace =>
    obtain rfl := Option.some.inj hstep
    exact h.goto (hself.goto (by rw [hplace]; rfl) (fun _ => InstallPlace.noConfusion)
      (.inr (by rw [hplace]; rfl)) (.inl rfl) Bool.noConfusion)
  case h_7 t checks hplace =>
    obtain rfl := Option.some.inj hstep
    refine h.check fun hholds => .of_staged (fun _ => hself.admitted (by rw [hplace]; rfl))
      (fun _ hchecks file hfile => ?_) rfl Bool.noConfusion fun _ => InstallPlace.noConfusion
    obtain rfl := Option.some.inj hchecks
    obtain ⟨hmode, hbehind⟩ := hself.staged _ (by rw [hplace]; rfl) file hfile
    refine ⟨hmode, fun t' ht' => ?_⟩
    rcases hbehind t' ht' with hmem | hpassed
    · rcases List.mem_cons.1 hmem with rfl | hmem
      · exact .inr (hholds file hfile)
      · exact .inl hmem
    · exact .inr hpassed
  case h_8 hplace =>
    obtain rfl := Option.some.inj hstep
    split
    · exact h.goto (hself.goto (by rw [hplace]; rfl) (fun _ => InstallPlace.noConfusion)
        (.inr (by rw [hplace]; rfl)) (.inl rfl) Bool.noConfusion)
    · rename_i hthere
      refine h.goto (hself.goto (by rw [hplace]; rfl) (fun _ => InstallPlace.noConfusion)
        (.inr (by rw [hplace]; rfl)) (.inl rfl) fun _ => ?_)
      -- What is a directory would be there.
      exact Bool.eq_false_iff.2 fun hdirectory => hthere (Look.isThere_of_isDirectory hdirectory)
  case h_9 hplace =>
    obtain rfl := Option.some.inj hstep
    split
    · rename_i hcontent
      refine h.goto ⟨fun _ => hself.admitted (by rw [hplace]; rfl), fun _ hchecks => ?_,
        fun _ hchecks _ _ t ht => .inl ?_, fun _ => ?_,
        fun _ hexited => InstallPlace.noConfusion hexited⟩
      · exact hself.staged _ (by rw [hplace]; exact hchecks)
      · obtain rfl := Option.some.inj hchecks
        exact List.mem_append_left _ ht
      · obtain ⟨file, hfile⟩ := Look.exists_of_content? hcontent
        rw [hfile]
        rfl
    · exact h.fail
  case h_10 hplace =>
    obtain rfl := Option.some.inj hstep
    exact h.goto (hself.goto (by rw [hplace]; rfl) (fun _ => InstallPlace.noConfusion)
      (.inr (by rw [hplace]; rfl)) (.inr (by rw [hplace]; rfl)) fun _ =>
        hself.looked (by rw [hplace]; rfl))
  case h_11 t checks hplace =>
    obtain rfl := Option.some.inj hstep
    refine h.check fun hholds => ?_
    refine ⟨fun _ => hself.admitted (by rw [hplace]; rfl), fun _ hchecks => ?_,
      fun _ hchecks file hfile t' ht' => ?_, fun _ => hself.looked (by rw [hplace]; rfl),
      fun _ hexited => InstallPlace.noConfusion hexited⟩
    · exact hself.staged _ (by rw [hplace]; exact hchecks)
    · obtain rfl := Option.some.inj hchecks
      rcases hself.active _ (by rw [hplace]; rfl) file hfile t' ht' with hmem | hpassed
      · rcases List.mem_cons.1 hmem with rfl | hmem
        · exact .inr (hholds file hfile)
        · exact .inl hmem
      · exact .inr hpassed
  case h_12 hplace =>
    obtain rfl := Option.some.inj hstep
    have hholds (file : Executable Content) (hfile : x.dir.look .active = .file file) :
        ∀ t ∈ rollbackTraits, tools.holds file.content t = true := fun t ht =>
      (hself.active [] (by rw [hplace]; rfl) file hfile t ht).resolve_left List.not_mem_nil
    refine h.change fun dir' hlink => h.link hlink hholds fun _ heq => ?_
    obtain rfl := Option.some.inj heq
    obtain ⟨-, -, rfl⟩ := Links.link_cases hlink
    have hactive : (x.dir.copy .active (.previousTmp pid)).look .active = x.dir.look .active :=
      Links.look_copy_of_ne InstallName.noConfusion
    refine .of_staged (fun _ => hself.admitted (by rw [hplace]; rfl))
      (fun _ hchecks file hfile => ?_) rfl (fun _ => ?_) fun _ => InstallPlace.noConfusion
    · dsimp only at hfile
      rw [Links.look_copy_of_ne InstallName.noConfusion] at hfile
      exact hself.staged _ (by rw [hplace]; exact hchecks) file hfile
    · dsimp only
      rw [hactive]
      exact hself.looked (by rw [hplace]; rfl)
  case h_13 hplace =>
    obtain rfl := Option.some.inj hstep
    refine h.change fun dir' hrename => h.retain hrename fun _ heq => ?_
    obtain rfl := Option.some.inj heq
    have hne {name : InstallName} (hold : name ≠ .previousTmp pid) (hnew : name ≠ .previous) :
        dir'.look name = x.dir.look name := Links.look_rename_of_ne hrename hold hnew
    refine .of_staged (fun _ => hself.admitted (by rw [hplace]; rfl))
      (fun _ hchecks file hfile => ?_) rfl (fun _ => ?_) fun _ => InstallPlace.noConfusion
    · dsimp only at hfile
      rw [hne InstallName.noConfusion InstallName.noConfusion] at hfile
      exact hself.staged _ (by rw [hplace]; exact hchecks) file hfile
    · dsimp only
      rw [hne InstallName.noConfusion InstallName.noConfusion]
      exact hself.looked (by rw [hplace]; rfl)
  case h_14 hplace =>
    obtain rfl := Option.some.inj hstep
    refine h.change fun dir' hrename => h.replace hinstaller hplace hrename fun _ heq => ?_
    obtain rfl := Option.some.inj heq
    exact .of_unchecked (fun _ => hself.admitted (by rw [hplace]; rfl)) rfl rfl
      fun _ => InstallPlace.noConfusion
  case h_15 hplace =>
    obtain rfl := Option.some.inj hstep
    exact hidle rfl fun _ => InstallPlace.noConfusion
  case h_16 t checks hplace =>
    obtain rfl := Option.some.inj hstep
    exact h.check fun _ => hself.goto (by rw [hplace]; rfl) (fun _ => InstallPlace.noConfusion)
      (.inl rfl) (.inl rfl) Bool.noConfusion
  case h_17 ok hplace =>
    obtain rfl := Option.some.inj hstep
    refine h.cleanup fun _ heq => ?_
    obtain rfl := Option.some.inj heq
    exact .of_gone rfl h.cleanup_look
  all_goals cases hstep

theorem step (h : x.Inv tools release dir look) {e : InstallEvent Content}
    (hstep : x.step tools release e = some x') : x'.Inv tools release dir look := by
  cases e with
  | start pid identity dryRun artifact =>
    rw [Site.step] at hstep
    split at hstep
    · obtain rfl := Option.some.inj hstep
      exact h.setInstaller (List.Subset.refl _) fun _ heq => by
        obtain rfl := Option.some.inj heq
        exact .of_idle rfl fun _ => InstallPlace.noConfusion
    · cases hstep
  | publish pid artifact =>
    obtain ⟨installer, hinstaller, rfl⟩ := Option.map_eq_some_iff.1 hstep
    refine h.setInstaller (List.Subset.refl _) fun _ heq => ?_
    obtain rfl := Option.some.inj heq
    have hself := h.sound pid installer hinstaller
    exact ⟨hself.admitted, hself.staged, hself.active, hself.looked, hself.gone⟩
  | proceed pid =>
    obtain ⟨installer, hinstaller, hproceed⟩ := Option.bind_eq_some_iff.1 hstep
    exact h.proceed hinstaller hproceed
  | fail pid =>
    obtain ⟨installer, hinstaller, hfail⟩ := Option.bind_eq_some_iff.1 hstep
    split at hfail
    case h_5 =>
      obtain rfl := Option.some.inj hfail
      exact h.fail
    all_goals cases hfail
  | copy pid mode =>
    obtain ⟨installer, hinstaller, hcopy⟩ := Option.bind_eq_some_iff.1 hstep
    obtain ⟨hplace, rfl⟩ := Option.ite_some_none_eq_some.1 hcopy
    have hself := h.sound pid installer hinstaller
    refine h.change fun dir' hput => ?_
    obtain ⟨content, -, hput⟩ := Option.bind_eq_some_iff.1 hput
    refine h.put hput fun _ heq => ?_
    obtain rfl := Option.some.inj heq
    exact .of_unchecked (fun _ => hself.admitted (by rw [hplace]; rfl)) rfl rfl
      fun _ => InstallPlace.noConfusion
  | failCopy pid left =>
    obtain ⟨installer, hinstaller, hcopy⟩ := Option.bind_eq_some_iff.1 hstep
    obtain ⟨hplace, rfl⟩ := Option.ite_some_none_eq_some.1 hcopy
    refine h.change fun dir' hput => h.put hput fun _ heq => ?_
    obtain rfl := Option.some.inj heq
    exact .of_idle rfl fun _ => InstallPlace.noConfusion
  | signal pid =>
    obtain ⟨installer, hinstaller, hsignal⟩ := Option.bind_eq_some_iff.1 hstep
    obtain ⟨-, rfl⟩ := Option.ite_some_none_eq_some.1 hsignal
    exact h.signal hinstaller
  | failCleanup pid staged previousTmp =>
    obtain ⟨installer, hinstaller, hfail⟩ := Option.bind_eq_some_iff.1 hstep
    split at hfail
    · obtain rfl := Option.some.inj hfail
      refine h.failCleanup fun _ heq => ?_
      obtain rfl := Option.some.inj heq
      exact .of_idle rfl fun _ => InstallPlace.noConfusion
    · obtain ⟨-, rfl⟩ := Option.ite_some_none_eq_some.1 hfail
      refine h.failCleanup fun _ heq => ?_
      obtain rfl := Option.some.inj heq
      exact .of_idle rfl fun _ => InstallPlace.noConfusion
  | kill pid =>
    obtain ⟨installer, hinstaller, rfl⟩ := Option.map_eq_some_iff.1 hstep
    exact h.setInstaller (List.Subset.refl _) fun _ heq => by cases heq

theorem of_reachable {allow : Site Content → InstallEvent Content → Prop}
    (h : (installation tools release dir).Reachable allow x) :
    x.Inv tools release dir (dir.look .active) :=
  h.invariant (fun hinit => hinit.2 ▸ initial hinit.1) fun _ hx _ hstep => hx.step hstep

end Site.Inv

/-- Installers on one destination are safe, however many there are, wherever they fail
    or are killed, and whatever becomes of the directories of their releases. The
    active path is as it was, or has an executable that has passed all checks of an
    installer, the digest of a manifest among them. So it is from any moment to any
    later one: it is never without an executable once it had one. `PATH.previous` is as
    it was, or has an executable that was active at first or has passed all checks, and
    is signed and universal. Nothing is renamed into another directory, unless
    `PATH.previous` is one. Who has exited, with an `rm` that did not fail, has left
    nothing else. -/
theorem install_safe (h : (installation tools release dir).Reachable EventSystem.always x) :
    (x.dir.look .active = dir.look .active ∨
      ∃ file, x.dir.look .active = .file file ∧ Vetted tools release x.admitted file) ∧
    (∀ x', (installation tools release dir).Path EventSystem.always x x' →
      x'.dir.look .active = x.dir.look .active ∨
        ∃ file, x'.dir.look .active = .file file ∧ Vetted tools release x'.admitted file) ∧
    (x.dir.look .previous = dir.look .previous ∨
      ∃ file, x.dir.look .previous = .file file ∧ Retained tools release dir x.admitted file) ∧
    (∀ name ∈ x.dir.inside, name ∈ dir.inside ∨
      (dir.look .previous).isDirectory = true ∧ ∃ pid, name = .previousTmp pid) ∧
    ∀ pid installer ok, x.installers pid = some installer → installer.place = .exited ok →
      x.dir.look (.staged pid) = .nothing ∧ x.dir.look (.previousTmp pid) = .nothing := by
  have hinv := Site.Inv.of_reachable h
  exact ⟨hinv.active, fun x' hpath =>
    (hpath.invariant hinv.now fun hx _ hstep => hx.step hstep).since, hinv.previous, hinv.inside,
    fun pid installer ok hinstaller => (hinv.sound pid installer hinstaller).gone ok⟩

end Steps

/-- A directory with one executable. -/
def Links.ofActive (file : Executable ℕ) : Links InstallName (Executable ℕ) where
  slot name := if name = .active then some (.file 0) else none
  content _ := file
  next := 1
  inside := []
  lt_next name inode h := by
    obtain ⟨-, heq⟩ := Option.ite_none_right_eq_some.1 h
    obtain rfl : 0 = inode := Slot.file.inj (Option.some.inj heq)
    exact Nat.one_pos

/-- Tools that tell contents apart by one digit. -/
def Tools.ofDigit : Tools ℕ where
  digest content := List.replicate 64 (Nat.digitChar content)
  signed _ := true
  universal _ := true
  authority _ _ := true
  sums _ _ := true

/-- A release of two such executables, with its manifest. -/
def Artifact.ofDigits (client server : ℕ) : Artifact ℕ where
  manifest := some (writtenManifest fun
    | .networkSyncAgent => Tools.ofDigit.digest client
    | .secureTunnelServer => Tools.ofDigit.digest server)
  file
    | .networkSyncAgent => some client
    | .secureTunnelServer => some server

/-- Two installers at once: the second one installs between the two renamings of the
    first one, and is not kept for a rollback. -/
theorem install_safe_two :
    let dir := Links.ofActive ⟨1, 0o755⟩
    ∃ x, (installation .ofDigit .networkSyncAgent dir).Reachable EventSystem.always x ∧
      x.dir.look .active = .file ⟨7, 0o755⟩ ∧ x.dir.look .previous = .file ⟨1, 0o755⟩ ∧
      Vetted .ofDigit .networkSyncAgent x.admitted ⟨7, 0o755⟩ := by
  intro dir
  let steps (pid n : ℕ) : List (InstallEvent ℕ) := List.replicate n (.proceed pid)
  let x := ((installation .ofDigit .networkSyncAgent dir).run EventSystem.always
    ⟨dir, fun _ => none, []⟩
    ([.start 1 none false (.ofDigits 7 0), .start 2 none false (.ofDigits 8 0)] ++ steps 1 12 ++
      [.copy 1 0o644] ++ steps 1 12 ++ steps 2 12 ++ [.copy 2 0o644] ++ steps 2 17 ++
      steps 1 5)).get (by decide +kernel)
  have hreach : (installation .ofDigit .networkSyncAgent dir).Reachable EventSystem.always x :=
    EventSystem.reachable_of_run ⟨fun _ => ⟨rfl, rfl⟩, rfl⟩ (Option.some_get _).symm
  have hactive : x.dir.look .active = .file ⟨7, 0o755⟩ := by decide +kernel
  refine ⟨x, hreach, hactive, by decide +kernel, ?_⟩
  obtain ⟨hsame | ⟨file, hfile, hvetted⟩, -⟩ := install_safe hreach
  · rw [hactive] at hsame
    exact absurd hsame (by decide +kernel)
  · obtain rfl := Look.file.inj (hactive.symm.trans hfile)
    exact hvetted

end SecureTunnel
