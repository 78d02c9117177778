import SecureTunnel.Deploy.Install

/-!
# What an installation leaves

One run of `release/install-atomic.sh` on a destination that no other one is run on,
with a directory of the release that does not change. Its commands may fail at any
place, and it may be killed or sent signals.

`install_outcome` says what is then in the directory of the destination. A run that
was interrupted may have replaced the rollback copy by the executable that is still
active (`Held`).
-/

namespace SecureTunnel

/-- A command of this installer runs, or fails, or it is sent a signal. -/
def InstallEvent.isBy {Content : Type*} (pid : ℕ) : InstallEvent Content → Prop
  | proceed q | fail q | copy q _ | failCopy q _ | signal q | failCleanup q .. | kill q => q = pid
  | start .. | publish .. => False

instance {Content : Type*} (pid : ℕ) (e : InstallEvent Content) : Decidable (e.isBy pid) :=
  match e with
  | .proceed q | .fail q | .copy q _ | .failCopy q _ | .signal q | .failCleanup q .. | .kill q =>
    inferInstanceAs (Decidable (q = pid))
  | .start .. | .publish .. => inferInstanceAs (Decidable False)

/-- An installer is started, and there is no other one. -/
def Site.begun {Content : Type*} (dir : Links InstallName (Executable Content)) (pid : ℕ)
    (identity : Option Text) (dryRun : Bool) (artifact : Artifact Content) : Site Content :=
  ⟨dir, Function.update (fun _ => none) pid (some
    ⟨identity, dryRun, artifact, [], .verifying (verifyArtifact identity)⟩), []⟩

section Outcome

variable {Content : Type*} (tools : Tools Content) (release : Release) (identity : Option Text)
  (artifact : Artifact Content) (dir dir' : Links InstallName (Executable Content))

/-- The paths that count are as they were. -/
def Untouched : Prop :=
  dir'.look .active = dir.look .active ∧ dir'.look .previous = dir.look .previous

/-- The active executable is also kept for a rollback, and not replaced. -/
def Held : Prop :=
  (∃ file, dir.look .active = .file file) ∧ dir'.look .active = dir.look .active ∧
    dir'.look .previous = dir.look .active

/-- The executable of the release is installed, and the one before it is kept for a
    rollback. Its digest is the one that the manifest lists. -/
structure Replaced : Prop where
  active : ∃ content, artifact.file release = some content ∧
    dir'.look .active = .file ⟨content, 0o755⟩ ∧
    (∃ manifest digest, artifact.manifest = some manifest ∧ Lists manifest digest ∧
      tools.digest content = digest release) ∧
    ∀ t ∈ verifyIdentity identity, tools.holds content t = true
  previous : dir'.look .previous =
    if (dir.look .active).isThere then dir.look .active else dir.look .previous

/-- What the directory is like at each place of the installer. -/
def OutcomeAt (pid : ℕ) : InstallPlace → Prop
  | .verifying _ | .source | .digest | .quit _ => dir' = dir
  | .copying | .chmod | .staged _ | .active => Untouched dir dir'
  | .regular => Untouched dir dir' ∧ (dir.look .active).isThere = true
  | .existing _ | .linking => Untouched dir dir' ∧ ∃ file, dir.look .active = .file file
  | .retaining => Untouched dir dir' ∧ (∃ file, dir.look .active = .file file) ∧
    (dir'.look (.previousTmp pid) = .nothing ∨ dir'.look (.previousTmp pid) = dir.look .active)
  | .replacing => Held dir dir' ∨ Untouched dir dir' ∧ (dir.look .active).isThere = false
  | .installed _ | .cleaning true | .exited true =>
    Replaced tools release identity artifact dir dir'
  | .cleaning false | .exited false | .littered => True

/-- What an installation can leave. -/
def Remains : Prop :=
  Untouched dir dir' ∨ Held dir dir' ∨ Replaced tools release identity artifact dir dir'

namespace InstallPlace

/-- What is still to be checked of the release. -/
def toVerify : InstallPlace → Option (List ArtifactCheck)
  | verifying checks => some checks
  | quit _ => none
  | _ => some []

/-- Nothing has been written. -/
def isBefore : InstallPlace → Bool
  | verifying _ | source | digest | quit _ => true
  | _ => false

theorem isBefore_eq_false {place : InstallPlace} (h : place.isTrapped = true) :
    place.isBefore = false := by
  cases place <;> first | rfl | cases h

theorem toVerify_eq_some {place : InstallPlace} (h : place.isBefore = false) :
    place.toVerify = some [] := by
  cases place <;> first | rfl | cases h

/-- The copy is complete, and not in use yet. -/
def hasCopy : InstallPlace → Bool
  | chmod | staged _ | active | regular | existing _ | linking | retaining | replacing => true
  | _ => false

end InstallPlace

/-- What an installer that is alone knows, and has done. -/
structure Alone (dryRun : Bool) (pid : ℕ) (installer : Installer Content) : Prop where
  settings : installer.identity = identity ∧ installer.artifact = artifact ∧
    installer.dryRun = dryRun
  verified : ∀ checks, installer.place.toVerify = some checks →
    ∀ c ∈ verifyArtifact identity, c ∈ checks ∨ artifact.passes tools c = true
  expected : installer.place.isTrapped = true → ∃ manifest, artifact.manifest = some manifest ∧
    installer.expected = expectedHash release manifest
  dry : dryRun = true → installer.place.isBefore = true
  copied : installer.place.hasCopy = true → ∀ file, dir'.look (.staged pid) = .file file →
    artifact.file release = some file.content
  outcome : OutcomeAt tools release identity artifact dir dir' pid installer.place

end Outcome

section Outcome

variable {Content : Type*} {tools : Tools Content} {release : Release} {identity : Option Text}
  {artifact : Artifact Content} {dir d d' : Links InstallName (Executable Content)}
  {dryRun : Bool} {pid : ℕ} {installer : Installer Content} {x x' : Site Content}
  {look : Look (Executable Content)}

theorem Untouched.of_look (h : Untouched dir d) (hactive : d'.look .active = d.look .active)
    (hprevious : d'.look .previous = d.look .previous) : Untouched dir d' :=
  ⟨hactive.trans h.1, hprevious.trans h.2⟩

theorem Held.of_look (h : Held dir d) (hactive : d'.look .active = d.look .active)
    (hprevious : d'.look .previous = d.look .previous) : Held dir d' :=
  ⟨h.1, hactive.trans h.2.1, hprevious.trans h.2.2⟩

theorem Replaced.of_look (h : Replaced tools release identity artifact dir d)
    (hactive : d'.look .active = d.look .active)
    (hprevious : d'.look .previous = d.look .previous) :
    Replaced tools release identity artifact dir d' := by
  obtain ⟨content, hfile, hlook, hholds⟩ := h.active
  exact ⟨⟨content, hfile, hactive.trans hlook, hholds⟩, hprevious.trans h.previous⟩

/-- What the names that count look like decides of the outcome, once something was
    written. -/
theorem OutcomeAt.of_look {place : InstallPlace}
    (h : OutcomeAt tools release identity artifact dir d pid place)
    (hbefore : place.isBefore = false) (hactive : d'.look .active = d.look .active)
    (hprevious : d'.look .previous = d.look .previous)
    (hpreviousTmp : d'.look (.previousTmp pid) = .nothing ∨
      d'.look (.previousTmp pid) = d.look (.previousTmp pid)) :
    OutcomeAt tools release identity artifact dir d' pid place := by
  cases place with
  | verifying | source | digest | quit => cases hbefore
  | copying | chmod | staged | active => exact Untouched.of_look h hactive hprevious
  | regular | existing | linking => exact ⟨h.1.of_look hactive hprevious, h.2⟩
  | retaining =>
    obtain ⟨huntouched, hfile, hlink⟩ := h
    refine ⟨huntouched.of_look hactive hprevious, hfile, ?_⟩
    rcases hpreviousTmp with hgone | hsame
    · exact .inl hgone
    · rw [hsame]
      exact hlink
  | replacing =>
    exact h.imp (·.of_look hactive hprevious) (And.imp_left (·.of_look hactive hprevious))
  | installed => exact Replaced.of_look h hactive hprevious
  | cleaning ok | exited ok =>
    cases ok with
    | true => exact Replaced.of_look h hactive hprevious
    | false => trivial
  | littered => trivial

namespace Alone

/-- A dry run exits before it copies. -/
theorem not_dry (h : Alone tools release identity artifact dir d dryRun pid installer)
    (hbefore : installer.place.isBefore = false) : ¬dryRun = true := by
  intro hdry
  rw [h.dry hdry] at hbefore
  cases hbefore

/-- The installer goes on to a place where nothing new is known. -/
theorem goto (h : Alone tools release identity artifact dir d dryRun pid installer)
    {place : InstallPlace} (hverified : place.toVerify = none ∨
      place.toVerify = installer.place.toVerify)
    (htrapped : place.isTrapped = true → installer.place.isTrapped = true)
    (hbefore : place.isBefore = installer.place.isBefore)
    (hcopied : place.hasCopy = true → installer.place.hasCopy = true ∧
      d'.look (.staged pid) = d.look (.staged pid))
    (houtcome : OutcomeAt tools release identity artifact dir d' pid place) :
    Alone tools release identity artifact dir d' dryRun pid { installer with place } where
  settings := h.settings
  verified checks hchecks := by
    rcases hverified with hnone | hsame
    · cases hnone.symm.trans hchecks
    · exact h.verified checks (hsame.symm.trans hchecks)
  expected hplace := h.expected (htrapped hplace)
  dry hdry := hbefore.trans (h.dry hdry)
  copied hplace file hfile := by
    obtain ⟨hcopy, hsame⟩ := hcopied hplace
    exact h.copied hcopy file (hsame.symm.trans hfile)
  outcome := houtcome

/-- The installer goes on from a place at which the trap is set. -/
theorem onward (h : Alone tools release identity artifact dir d dryRun pid installer)
    (htrapped : installer.place.isTrapped = true) {place : InstallPlace}
    (hplace : place.toVerify = some [] ∧ place.isBefore = false)
    (hcopied : place.hasCopy = true → ∀ file, d'.look (.staged pid) = .file file →
      artifact.file release = some file.content)
    (houtcome : OutcomeAt tools release identity artifact dir d' pid place) :
    Alone tools release identity artifact dir d' dryRun pid { installer with place } where
  settings := h.settings
  verified checks hchecks :=
    have hbefore := InstallPlace.isBefore_eq_false htrapped
    h.verified checks
      ((InstallPlace.toVerify_eq_some hbefore).trans (hplace.1.symm.trans hchecks))
  expected _ := h.expected htrapped
  dry hdry := absurd hdry (h.not_dry (InstallPlace.isBefore_eq_false htrapped))
  copied := hcopied
  outcome := houtcome

theorem fail (h : Alone tools release identity artifact dir d dryRun pid installer)
    (hlive : installer.place.isBefore = true ∨ installer.place.isTrapped = true) :
    Alone tools release identity artifact dir d dryRun pid
      { installer with place := installer.place.failed } := by
  have houtcome := h.outcome
  cases hplace : installer.place with
  | cleaning | exited | littered =>
    rcases hlive with hlive | hlive <;> rw [hplace] at hlive <;> cases hlive
  | verifying | source | digest | quit =>
    rw [hplace] at houtcome
    exact h.goto (.inl rfl) (fun htrapped => by cases htrapped) (by rw [hplace]; rfl)
      (fun hcopy => by cases hcopy) houtcome
  | copying | chmod | staged | active | regular | existing | linking | retaining | replacing
  | installed =>
    exact h.goto (.inr (by rw [hplace]; rfl)) (fun htrapped => by cases htrapped)
      (by rw [hplace]; rfl) (fun hcopy => by cases hcopy) trivial

/-- The copy becomes the active executable: it is that of the release, and what it
    replaces is kept. -/
theorem replaced (h : Alone tools release identity artifact dir x.dir dryRun pid installer)
    (hinv : x.Inv tools release dir look) (hinstaller : x.installers pid = some installer)
    (hplace : installer.place = .replacing)
    (hrename : x.dir.rename (.staged pid) .active = some d') :
    Replaced tools release identity artifact dir d' := by
  have houtcome := h.outcome
  rw [hplace] at houtcome
  have hprevious : d'.look .previous = x.dir.look .previous :=
    Links.look_rename_of_ne hrename InstallName.noConfusion InstallName.noConfusion
  obtain ⟨file, hfile⟩ := (hinv.staged pid).resolve_left (Links.ne_nothing_of_rename hrename)
  have hnew : d'.look .active = .file file := by
    rcases Links.look_rename_new hrename InstallName.noConfusion with hnew | ⟨hdirectory, -⟩
    · exact hnew.trans hfile
    · exfalso
      obtain ⟨⟨file', hfile'⟩, hactive, -⟩ | ⟨⟨hactive, -⟩, hthere⟩ := houtcome
      · rw [hactive, hfile'] at hdirectory
        cases hdirectory
      · rw [hactive] at hdirectory
        rw [Look.isThere_of_isDirectory hdirectory] at hthere
        cases hthere
  obtain ⟨hmode, hholds⟩ := (hinv.sound pid installer hinstaller).staged []
    (by rw [hplace]; rfl) file hfile
  refine ⟨⟨file.content, h.copied (by rw [hplace]; rfl) file hfile, ?_, ?_, ?_⟩, ?_⟩
  · rw [hnew, ← hmode]
  · obtain ⟨manifest, hmanifest, hexpected⟩ := h.expected (by rw [hplace]; rfl)
    have hmem : .format ∈ verifyArtifact identity := by simp [verifyArtifact]
    have hformat := (h.verified [] (by rw [hplace]; rfl) .format hmem).resolve_left
      List.not_mem_nil
    rw [Artifact.passes, hmanifest] at hformat
    obtain ⟨digest, hlists⟩ := validateManifest_iff.1 hformat
    have hdigest := (hholds (.digest installer.expected) List.mem_cons_self).resolve_left
      List.not_mem_nil
    refine ⟨manifest, digest, hmanifest, hlists, ?_⟩
    rw [← hlists.expectedHash, ← hexpected]
    exact of_decide_eq_true hdigest
  · intro t ht
    rw [← h.settings.1] at ht
    exact (hholds t (List.mem_cons_of_mem _ ht)).resolve_left List.not_mem_nil
  · rw [hprevious]
    obtain ⟨⟨file', hfile'⟩, -, hheld⟩ | ⟨⟨-, hsame⟩, hthere⟩ := houtcome
    · rw [hheld, hfile']
      rfl
    · rw [hsame, hthere]
      rfl

end Alone

theorem Remains.of_look (h : Remains tools release identity artifact dir d)
    (hactive : d'.look .active = d.look .active)
    (hprevious : d'.look .previous = d.look .previous) :
    Remains tools release identity artifact dir d' :=
  h.imp (·.of_look hactive hprevious)
    (Or.imp (·.of_look hactive hprevious) (·.of_look hactive hprevious))

variable (tools release identity artifact dir dryRun pid) in
/-- A run of an installer that is alone. -/
structure Solo (x : Site Content) : Prop where
  dry : dryRun = true → x.dir = dir
  remains : Remains tools release identity artifact dir x.dir
  installer : ∀ installer, x.installers pid = some installer →
    Alone tools release identity artifact dir x.dir dryRun pid installer

namespace Solo

theorem set (hdry : dryRun = true → d' = dir)
    (hremains : Remains tools release identity artifact dir d')
    {next : Option (Installer Content)} {admitted : List (Option Text × Text)}
    {installers : ℕ → Option (Installer Content)}
    (hnext : ∀ installer, next = some installer →
      Alone tools release identity artifact dir d' dryRun pid installer) :
    Solo tools release identity artifact dir dryRun pid
      ⟨d', Function.update installers pid next, admitted⟩ :=
  ⟨hdry, hremains, fun installer hinstaller => by
    dsimp only at hinstaller
    rw [Function.update_self] at hinstaller
    exact hnext installer hinstaller⟩

/-- The directory stays as it is. -/
theorem goto (h : Solo tools release identity artifact dir dryRun pid x) {place : InstallPlace}
    (halone : Alone tools release identity artifact dir x.dir dryRun pid
      { installer with place }) :
    Solo tools release identity artifact dir dryRun pid (x.goto pid installer place) :=
  set h.dry h.remains fun _ heq => Option.some.inj heq ▸ halone

theorem fail (h : Solo tools release identity artifact dir dryRun pid x)
    (hinstaller : x.installers pid = some installer)
    (hlive : installer.place.isBefore = true ∨ installer.place.isTrapped = true) :
    Solo tools release identity artifact dir dryRun pid (x.fail pid installer) :=
  h.goto ((h.installer installer hinstaller).fail hlive)

/-- The directory changes, and the paths that count look the same. -/
theorem change (h : Solo tools release identity artifact dir dryRun pid x)
    (hinstaller : x.installers pid = some installer) (htrapped : installer.place.isTrapped = true)
    {changed : Option (Links InstallName (Executable Content))} {next : InstallPlace}
    (hchanged : ∀ dir', changed = some dir' →
      Remains tools release identity artifact dir dir' ∧
      Alone tools release identity artifact dir dir' dryRun pid { installer with place := next }) :
    Solo tools release identity artifact dir dryRun pid (x.change pid installer changed next) := by
  cases changed with
  | none => exact h.fail hinstaller (.inr htrapped)
  | some dir' =>
    obtain ⟨hremains, halone⟩ := hchanged dir' rfl
    have hbefore := InstallPlace.isBefore_eq_false htrapped
    have hwet := (h.installer installer hinstaller).not_dry hbefore
    exact set (fun hdry => absurd hdry hwet) hremains fun _ heq => Option.some.inj heq ▸ halone

/-- Writing the copy changes no other name. -/
theorem put (h : Solo tools release identity artifact dir dryRun pid x)
    (hinv : x.Inv tools release dir look) (hinstaller : x.installers pid = some installer)
    (hplace : installer.place = .copying) {file : Executable Content}
    (hput : x.dir.put (.staged pid) file = some d') :
    Remains tools release identity artifact dir d' ∧ Untouched dir d' := by
  have houtcome := (h.installer installer hinstaller).outcome
  rw [hplace] at houtcome
  have hactive : d'.look .active = x.dir.look .active :=
    Links.look_put_of_ne hput (hinv.sole pid) InstallName.noConfusion
  have hprevious : d'.look .previous = x.dir.look .previous :=
    Links.look_put_of_ne hput (hinv.sole pid) InstallName.noConfusion
  exact ⟨h.remains.of_look hactive hprevious, Untouched.of_look houtcome hactive hprevious⟩

theorem check (h : Solo tools release identity artifact dir dryRun pid x)
    (hinstaller : x.installers pid = some installer) (htrapped : installer.place.isTrapped = true)
    {name : InstallName} {t : Trait} {next : InstallPlace}
    (halone : Alone tools release identity artifact dir x.dir dryRun pid
      { installer with place := next }) :
    Solo tools release identity artifact dir dryRun pid
      (x.check tools pid installer name t next) := by
  rw [Site.check]
  split
  · exact h.goto halone
  · exact h.fail hinstaller (.inr htrapped)

/-- The next command of the installer. -/
theorem proceed (h : Solo tools release identity artifact dir dryRun pid x)
    (hinv : x.Inv tools release dir look) (hdirectory : (dir.look .previous).isDirectory = false)
    (hinstaller : x.installers pid = some installer)
    (hstep : x.proceed tools release pid installer = some x') :
    Solo tools release identity artifact dir dryRun pid x' := by
  have hself := h.installer installer hinstaller
  have hsound := hinv.sound pid installer hinstaller
  have houtcome := hself.outcome
  have hcopied := hself.copied
  rw [Site.proceed.eq_def] at hstep
  split at hstep
  case h_1 hplace =>
    obtain rfl := Option.some.inj hstep
    rw [hplace] at houtcome
    exact h.goto (hself.goto (.inr (by rw [hplace]; rfl)) (fun htrapped => by cases htrapped)
      (by rw [hplace]; rfl) (fun hcopy => by cases hcopy) houtcome)
  case h_2 c checks hplace =>
    obtain rfl := Option.some.inj hstep
    split
    · rename_i hpasses
      rw [hplace] at houtcome
      refine h.goto ⟨hself.settings, fun _ hchecks c' hc' => ?_, Bool.noConfusion, fun _ => rfl,
        Bool.noConfusion, houtcome⟩
      obtain rfl := Option.some.inj hchecks
      rcases hself.verified _ (by rw [hplace]; rfl) c' hc' with hmem | hpassed
      · rcases List.mem_cons.1 hmem with rfl | hmem
        · exact .inr (hself.settings.2.1 ▸ hpasses)
        · exact .inl hmem
      · exact .inr hpassed
    · exact h.fail hinstaller (.inl (by rw [hplace]; rfl))
  case h_3 hplace =>
    obtain rfl := Option.some.inj hstep
    split
    · rw [hplace] at houtcome
      exact h.goto (hself.goto (.inr (by rw [hplace]; rfl)) (fun htrapped => by cases htrapped)
        (by rw [hplace]; rfl) (fun hcopy => by cases hcopy) houtcome)
    · exact h.fail hinstaller (.inl (by rw [hplace]; rfl))
  case h_4 hplace =>
    have hbefore : installer.place.isBefore = true := by rw [hplace]; rfl
    rw [hplace] at houtcome
    split at hstep
    · obtain rfl := Option.some.inj hstep
      exact h.fail hinstaller (.inl hbefore)
    · rename_i manifest hmanifest
      obtain rfl := Option.some.inj hstep
      split_ifs with _ hdry
      · exact h.fail hinstaller (.inl hbefore)
      · exact h.goto (hself.goto (.inl rfl) (fun htrapped => by cases htrapped)
          (by rw [hplace]; rfl) (fun hcopy => by cases hcopy) houtcome)
      · refine set h.dry h.remains fun _ heq => ?_
        obtain rfl := Option.some.inj heq
        rw [hself.settings.2.1] at hmanifest
        refine ⟨hself.settings, fun _ hchecks => ?_, fun _ => ⟨manifest, hmanifest, rfl⟩,
          fun htrue => ?_, Bool.noConfusion, ?_⟩
        · exact hself.verified _ (by rw [hplace]; exact hchecks)
        · rw [hself.settings.2.2] at hdry
          exact absurd htrue hdry
        · rw [show x.dir = dir from houtcome]
          exact ⟨rfl, rfl⟩
  case h_5 hplace =>
    have htrapped : installer.place.isTrapped = true := by rw [hplace]; rfl
    rw [hplace] at houtcome hcopied
    split at hstep
    · rename_i file hfile
      obtain rfl := Option.some.inj hstep
      refine h.change hinstaller htrapped fun dir' hput => ?_
      have hactive : dir'.look .active = x.dir.look .active :=
        Links.look_put_of_ne hput (hinv.sole pid) InstallName.noConfusion
      have hprevious : dir'.look .previous = x.dir.look .previous :=
        Links.look_put_of_ne hput (hinv.sole pid) InstallName.noConfusion
      refine ⟨h.remains.of_look hactive hprevious, hself.onward htrapped ⟨rfl, rfl⟩
        (fun _ file' hfile' => ?_) (Untouched.of_look houtcome hactive hprevious)⟩
      obtain rfl := Look.file.inj ((Links.look_put_self hput).symm.trans hfile')
      exact hcopied rfl file hfile
    · obtain rfl := Option.some.inj hstep
      exact h.fail hinstaller (.inr htrapped)
  case h_6 hplace =>
    obtain rfl := Option.some.inj hstep
    rw [hplace] at houtcome hcopied
    exact h.goto (hself.onward (by rw [hplace]; rfl) ⟨rfl, rfl⟩ hcopied houtcome)
  case h_7 t checks hplace =>
    obtain rfl := Option.some.inj hstep
    have htrapped : installer.place.isTrapped = true := by rw [hplace]; rfl
    rw [hplace] at houtcome hcopied
    exact h.check hinstaller htrapped (hself.onward htrapped ⟨rfl, rfl⟩ hcopied houtcome)
  case h_8 hplace =>
    obtain rfl := Option.some.inj hstep
    have htrapped : installer.place.isTrapped = true := by rw [hplace]; rfl
    rw [hplace] at houtcome hcopied
    have hactive : x.dir.look .active = dir.look .active := houtcome.1
    split
    · rename_i hthere
      exact h.goto (hself.onward htrapped ⟨rfl, rfl⟩ hcopied ⟨houtcome, hactive ▸ hthere⟩)
    · rename_i hthere
      exact h.goto (hself.onward htrapped ⟨rfl, rfl⟩ hcopied
        (.inr ⟨houtcome, hactive ▸ Bool.eq_false_iff.2 hthere⟩))
  case h_9 hplace =>
    obtain rfl := Option.some.inj hstep
    have htrapped : installer.place.isTrapped = true := by rw [hplace]; rfl
    rw [hplace] at houtcome hcopied
    split
    · rename_i hcontent
      refine h.goto (hself.onward htrapped ⟨rfl, rfl⟩ hcopied ⟨houtcome.1, ?_⟩)
      rw [houtcome.1.1] at hcontent
      exact Look.exists_of_content? hcontent
    · exact h.fail hinstaller (.inr htrapped)
  case h_10 hplace =>
    obtain rfl := Option.some.inj hstep
    rw [hplace] at houtcome hcopied
    exact h.goto (hself.onward (by rw [hplace]; rfl) ⟨rfl, rfl⟩ hcopied houtcome)
  case h_11 t checks hplace =>
    obtain rfl := Option.some.inj hstep
    have htrapped : installer.place.isTrapped = true := by rw [hplace]; rfl
    rw [hplace] at houtcome hcopied
    exact h.check hinstaller htrapped (hself.onward htrapped ⟨rfl, rfl⟩ hcopied houtcome)
  case h_12 hplace =>
    obtain rfl := Option.some.inj hstep
    have htrapped : installer.place.isTrapped = true := by rw [hplace]; rfl
    rw [hplace] at houtcome hcopied
    refine h.change hinstaller htrapped fun dir' hlink => ?_
    obtain ⟨-, -, rfl⟩ := Links.link_cases hlink
    have hsame {name : InstallName} (hne : name ≠ .previousTmp pid) :
        (x.dir.copy .active (.previousTmp pid)).look name = x.dir.look name :=
      Links.look_copy_of_ne hne
    have hactive := @hsame .active InstallName.noConfusion
    have hprevious := @hsame .previous InstallName.noConfusion
    refine ⟨h.remains.of_look hactive hprevious, hself.onward htrapped ⟨rfl, rfl⟩ ?_
      ⟨houtcome.1.of_look hactive hprevious, houtcome.2,
        .inr (Links.look_copy_self.trans houtcome.1.1)⟩⟩
    rw [hsame InstallName.noConfusion]
    exact hcopied
  case h_13 hplace =>
    obtain rfl := Option.some.inj hstep
    have htrapped : installer.place.isTrapped = true := by rw [hplace]; rfl
    rw [hplace] at houtcome hcopied
    obtain ⟨huntouched, hfile, hlink⟩ := houtcome
    refine h.change hinstaller htrapped fun dir' hrename => ?_
    have hheld : Held dir dir' := by
      refine ⟨hfile, ?_, ?_⟩
      · rw [Links.look_rename_of_ne hrename InstallName.noConfusion InstallName.noConfusion]
        exact huntouched.1
      · rcases Links.look_rename_new hrename InstallName.noConfusion with hnew | ⟨hnew, -⟩
        · rw [hnew]
          exact hlink.resolve_left (Links.ne_nothing_of_rename hrename)
        · rw [huntouched.2, hdirectory] at hnew
          cases hnew
    refine ⟨.inr (.inl hheld), hself.onward htrapped ⟨rfl, rfl⟩ ?_ (.inl hheld)⟩
    rw [Links.look_rename_of_ne hrename InstallName.noConfusion InstallName.noConfusion]
    exact hcopied
  case h_14 hplace =>
    obtain rfl := Option.some.inj hstep
    have htrapped : installer.place.isTrapped = true := by rw [hplace]; rfl
    refine h.change hinstaller htrapped fun dir' hrename => ?_
    have hreplaced := hself.replaced hinv hinstaller hplace hrename
    exact ⟨.inr (.inr hreplaced), hself.onward htrapped ⟨rfl, rfl⟩ Bool.noConfusion hreplaced⟩
  case h_15 hplace =>
    obtain rfl := Option.some.inj hstep
    rw [hplace] at houtcome
    exact h.goto (hself.onward (by rw [hplace]; rfl) ⟨rfl, rfl⟩ (fun hcopy => by cases hcopy)
      houtcome)
  case h_16 t checks hplace =>
    obtain rfl := Option.some.inj hstep
    have htrapped : installer.place.isTrapped = true := by rw [hplace]; rfl
    rw [hplace] at houtcome
    exact h.check hinstaller htrapped (hself.onward htrapped ⟨rfl, rfl⟩
      (fun hcopy => by cases hcopy) houtcome)
  case h_17 ok hplace =>
    obtain rfl := Option.some.inj hstep
    have hactive : (x.cleanup pid).dir.look .active = x.dir.look .active :=
      Site.Inv.look_cleanup_of_ne InstallName.noConfusion InstallName.noConfusion
    have hprevious : (x.cleanup pid).dir.look .previous = x.dir.look .previous :=
      Site.Inv.look_cleanup_of_ne InstallName.noConfusion InstallName.noConfusion
    have hwet : ¬dryRun = true := hself.not_dry (by rw [hplace]; rfl)
    refine set (fun hdry => absurd hdry hwet) (h.remains.of_look hactive hprevious) fun _ heq => ?_
    obtain rfl := Option.some.inj heq
    rw [hplace] at houtcome
    refine ⟨hself.settings, fun _ hchecks => ?_, Bool.noConfusion, fun hdry => absurd hdry hwet,
      Bool.noConfusion, ?_⟩
    · exact hself.verified _ (by rw [hplace]; exact hchecks)
    · have hexited : OutcomeAt tools release identity artifact dir x.dir pid (.exited ok) := by
        cases ok <;> exact houtcome
      exact hexited.of_look rfl hactive hprevious (.inl hinv.cleanup_look.2)
  all_goals cases hstep

theorem signal (h : Solo tools release identity artifact dir dryRun pid x)
    (hinv : x.Inv tools release dir look) (hinstaller : x.installers pid = some installer)
    (htrapped : installer.place.isTrapped = true) :
    Solo tools release identity artifact dir dryRun pid (x.cleanup pid) := by
  have hself := h.installer installer hinstaller
  have hactive : (x.cleanup pid).dir.look .active = x.dir.look .active :=
    Site.Inv.look_cleanup_of_ne InstallName.noConfusion InstallName.noConfusion
  have hprevious : (x.cleanup pid).dir.look .previous = x.dir.look .previous :=
    Site.Inv.look_cleanup_of_ne InstallName.noConfusion InstallName.noConfusion
  have hbefore := InstallPlace.isBefore_eq_false htrapped
  refine ⟨fun hdry => absurd hdry (hself.not_dry hbefore), h.remains.of_look hactive hprevious,
    fun installer' hinstaller' => ?_⟩
  obtain rfl := Option.some.inj (hinstaller.symm.trans hinstaller')
  refine hself.onward htrapped ⟨InstallPlace.toVerify_eq_some hbefore, hbefore⟩
    (fun _ file hfile => ?_)
    (hself.outcome.of_look hbefore hactive hprevious (.inl hinv.cleanup_look.2))
  rw [hinv.cleanup_look.1] at hfile
  cases hfile

/-- An `rm` that fails does not change what is at the paths that count. -/
theorem failCleanup (h : Solo tools release identity artifact dir dryRun pid x)
    (hinstaller : x.installers pid = some installer) (hbefore : installer.place.isBefore = false)
    {staged previousTmp : Bool} {place : InstallPlace}
    (hplace : place = .littered ∨ place = .cleaning false) :
    Solo tools release identity artifact dir dryRun pid
      ((x.failCleanup pid staged previousTmp).goto pid installer place) := by
  have hself := h.installer installer hinstaller
  have hremains : Remains tools release identity artifact dir
      (x.failCleanup pid staged previousTmp).dir :=
    h.remains.of_look
      (Site.Inv.look_failCleanup_of_ne InstallName.noConfusion InstallName.noConfusion)
      (Site.Inv.look_failCleanup_of_ne InstallName.noConfusion InstallName.noConfusion)
  refine set (fun hdry => absurd hdry (hself.not_dry hbefore)) hremains fun _ heq => ?_
  obtain rfl := Option.some.inj heq
  -- The script is at its end, and nothing more is known.
  have hverified := (InstallPlace.toVerify_eq_some hbefore).symm
  rcases hplace with rfl | rfl
  · exact hself.goto (.inr hverified) Bool.noConfusion hbefore.symm Bool.noConfusion trivial
  · exact hself.goto (.inr hverified) Bool.noConfusion hbefore.symm Bool.noConfusion trivial

theorem step (h : Solo tools release identity artifact dir dryRun pid x)
    (hinv : x.Inv tools release dir look)
    (hdirectory : (dir.look .previous).isDirectory = false) {e : InstallEvent Content}
    (hby : e.isBy pid) (hstep : x.step tools release e = some x') :
    Solo tools release identity artifact dir dryRun pid x' := by
  cases e with
  | start | publish => cases hby
  | proceed q =>
    obtain rfl : q = pid := hby
    obtain ⟨installer, hinstaller, hproceed⟩ := Option.bind_eq_some_iff.1 hstep
    exact h.proceed hinv hdirectory hinstaller hproceed
  | fail q =>
    obtain rfl : q = pid := hby
    obtain ⟨installer, hinstaller, hfail⟩ := Option.bind_eq_some_iff.1 hstep
    split at hfail
    case h_5 hcleaning hexited hlittered hquit =>
      obtain rfl := Option.some.inj hfail
      refine h.fail hinstaller ?_
      cases hplace : installer.place with
      | cleaning ok => exact absurd hplace (hcleaning ok)
      | exited ok => exact absurd hplace (hexited ok)
      | littered => exact absurd hplace hlittered
      | verifying | source | digest | quit => exact .inl rfl
      | _ => exact .inr rfl
    all_goals cases hfail
  | copy q mode =>
    obtain rfl : q = pid := hby
    obtain ⟨installer, hinstaller, hcopy⟩ := Option.bind_eq_some_iff.1 hstep
    obtain ⟨hplace, rfl⟩ := Option.ite_some_none_eq_some.1 hcopy
    have hself := h.installer installer hinstaller
    have htrapped : installer.place.isTrapped = true := by rw [hplace]; rfl
    refine h.change hinstaller htrapped fun dir' hput => ?_
    obtain ⟨content, hcontent, hput⟩ := Option.bind_eq_some_iff.1 hput
    obtain ⟨hremains, huntouched⟩ := h.put hinv hinstaller hplace hput
    refine ⟨hremains, hself.onward htrapped ⟨rfl, rfl⟩ (fun _ file hfile => ?_) huntouched⟩
    obtain rfl := Look.file.inj ((Links.look_put_self hput).symm.trans hfile)
    rw [← hself.settings.2.1]
    exact hcontent
  | failCopy q left =>
    obtain rfl : q = pid := hby
    obtain ⟨installer, hinstaller, hcopy⟩ := Option.bind_eq_some_iff.1 hstep
    obtain ⟨hplace, rfl⟩ := Option.ite_some_none_eq_some.1 hcopy
    have hself := h.installer installer hinstaller
    have htrapped : installer.place.isTrapped = true := by rw [hplace]; rfl
    refine h.change hinstaller htrapped fun dir' hput => ?_
    exact ⟨(h.put hinv hinstaller hplace hput).1,
      hself.onward htrapped ⟨rfl, rfl⟩ Bool.noConfusion trivial⟩
  | signal q =>
    obtain rfl : q = pid := hby
    obtain ⟨installer, hinstaller, hsignal⟩ := Option.bind_eq_some_iff.1 hstep
    obtain ⟨htrapped, rfl⟩ := Option.ite_some_none_eq_some.1 hsignal
    exact h.signal hinv hinstaller htrapped
  | failCleanup q staged previousTmp =>
    obtain rfl : q = pid := hby
    obtain ⟨installer, hinstaller, hfail⟩ := Option.bind_eq_some_iff.1 hstep
    have hself := h.installer installer hinstaller
    split at hfail
    · rename_i ok hplace
      obtain rfl := Option.some.inj hfail
      exact h.failCleanup hinstaller (by rw [hplace]; rfl) (.inl rfl)
    · rename_i hcleaning
      obtain ⟨htrapped, rfl⟩ := Option.ite_some_none_eq_some.1 hfail
      exact h.failCleanup hinstaller (InstallPlace.isBefore_eq_false htrapped) (.inr rfl)
  | kill q =>
    obtain rfl : q = pid := hby
    obtain ⟨installer, hinstaller, rfl⟩ := Option.map_eq_some_iff.1 hstep
    exact set h.dry h.remains fun _ heq => by cases heq

theorem begun : Solo tools release identity artifact dir dryRun pid
    (.begun dir pid identity dryRun artifact) := by
  refine set (fun _ => rfl) (.inl ⟨rfl, rfl⟩) fun _ heq => ?_
  obtain rfl := Option.some.inj heq
  exact ⟨⟨rfl, rfl, rfl⟩, fun checks hchecks c hc => .inl (Option.some.inj hchecks ▸ hc),
    Bool.noConfusion, fun _ => rfl, Bool.noConfusion, rfl⟩

end Solo

/-- What one installation leaves, wherever it fails, is killed or is sent signals. The
    paths that count are as they were; or the active executable is kept under
    `PATH.previous` too, and still active; or it is replaced by the one of the release,
    whose digest the manifest lists, and kept if there was one. It succeeds only in the
    last case. A run that exits before it copies has written nothing (only a dry run
    exits there with success), and a dry run never writes; one that exits later, with an
    `rm` that does not fail, leaves no other name behind. -/
theorem install_outcome (hfresh : ∀ q, dir.look (.staged q) = .nothing ∧
      dir.look (.previousTmp q) = .nothing)
    (hdirectory : (dir.look .previous).isDirectory = false)
    (h : (installation tools release dir).Path (fun _ e => e.isBy pid)
      (.begun dir pid identity dryRun artifact) x) :
    Remains tools release identity artifact dir x.dir ∧ (dryRun = true → x.dir = dir) ∧
    ∀ installer, x.installers pid = some installer →
      (∀ ok, installer.place = .quit ok → x.dir = dir) ∧
      (installer.place = .exited true → Replaced tools release identity artifact dir x.dir) ∧
      ∀ ok, installer.place = .exited ok →
        x.dir.look (.staged pid) = .nothing ∧ x.dir.look (.previousTmp pid) = .nothing := by
  have hbegun : (installation tools release dir).Reachable EventSystem.always
      (.begun dir pid identity dryRun artifact) :=
    .step (e := .start pid identity dryRun artifact) (.init ⟨hfresh, rfl⟩) trivial rfl
  obtain ⟨hinv, hsolo⟩ := h.invariant
    (P := fun x => x.Inv tools release dir (dir.look .active) ∧
      Solo tools release identity artifact dir dryRun pid x)
    ⟨.of_reachable hbegun, .begun⟩ fun hx hby hstep =>
      ⟨hx.1.step hstep, hx.2.step hx.1 hdirectory hby hstep⟩
  refine ⟨hsolo.remains, hsolo.dry, fun installer hinstaller => ?_⟩
  have houtcome := (hsolo.installer installer hinstaller).outcome
  refine ⟨fun ok hplace => ?_, fun hplace => ?_, (hinv.sound pid installer hinstaller).gone⟩
  · rw [hplace] at houtcome
    exact houtcome
  · rw [hplace] at houtcome
    exact houtcome

end Outcome

/-- An installation that is not interrupted, and one that a signal reaches while it
    checks the executable to be replaced. -/
theorem install_outcome_two :
    let dir := Links.ofActive ⟨1, 0o755⟩
    let artifact := Artifact.ofDigits 7 0
    (∃ x : Site ℕ, Replaced .ofDigit .networkSyncAgent none artifact dir x.dir ∧
      x.dir.look .previous = .file ⟨1, 0o755⟩ ∧ x.dir.look (.staged 5) = .nothing) ∧
    ∃ x : Site ℕ, Remains .ofDigit .networkSyncAgent none artifact dir x.dir ∧
      x.dir.look .active = .file ⟨1, 0o755⟩ ∧ x.dir.look .previous = .file ⟨1, 0o755⟩ := by
  intro dir artifact
  let M := installation .ofDigit .networkSyncAgent dir
  let start := Site.begun dir 5 none false artifact
  have hfresh (q : ℕ) : dir.look (.staged q) = .nothing ∧ dir.look (.previousTmp q) = .nothing :=
    ⟨rfl, rfl⟩
  let steps (n : ℕ) : List (InstallEvent ℕ) := List.replicate n (.proceed 5)
  constructor
  · let x := (M.run (fun _ e => e.isBy 5) start (steps 12 ++ [.copy 5 0o644] ++ steps 17)).get
      (by decide +kernel)
    have hpath : M.Path (fun _ e => e.isBy 5) start x :=
      EventSystem.path_of_run (Option.some_get _).symm
    obtain ⟨-, -, hinstaller⟩ := install_outcome hfresh rfl hpath
    have hexited : (x.installers 5).any fun i => i.place = .exited true := by decide +kernel
    obtain ⟨installer, hlive, hplace⟩ := (Option.any_eq_true _ _).1 hexited
    exact ⟨x, (hinstaller installer hlive).2.1 (of_decide_eq_true hplace), by decide +kernel,
      by decide +kernel⟩
  · let x := (M.run (fun _ e => e.isBy 5) start
      (steps 12 ++ [.copy 5 0o644] ++ steps 7 ++ [.signal 5] ++ steps 6)).get (by decide +kernel)
    have hpath : M.Path (fun _ e => e.isBy 5) start x :=
      EventSystem.path_of_run (Option.some_get _).symm
    exact ⟨x, (install_outcome hfresh rfl hpath).1, by decide +kernel, by decide +kernel⟩

end SecureTunnel
