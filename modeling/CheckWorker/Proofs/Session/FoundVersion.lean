import CheckWorker.Proofs.Gateway.Independence
import CheckWorker.Proofs.Session.Initialization

/-!
# The version that is found

An installation trusts what the host reports once everything has been installed: the text of the
version has to begin with the text that was asked for. Whatever stands behind that is accepted, be it
a further component, a suffix or more digits of the last component.
-/

namespace CheckWorker

open Act

/-- The calls of an installation in whose way nothing stands. -/
def installPlan (table : VersionTable) (spec : EngineSpec) (requested : String) : List Call := [
    .ensureReady,
    .install (table.resolve spec.package requested).packages,
    .installedVersion spec.package]

/-- The answers to an installation up to the version that is found. -/
def reported (table : VersionTable) (spec : EngineSpec) (requested found : String) :
    List Exchange := [
    ⟨.ensureReady, .ok ()⟩,
    ⟨.install (table.resolve spec.package requested).packages, .ok ()⟩,
    ⟨.installedVersion spec.package, .ok found⟩]

/-- How an installation may go: what it asks and is answered, and how it ends. -/
inductive InstallCourse (table : VersionTable) (spec : EngineSpec) (requested : String) :
    List Exchange → Outcome Installed → Prop
  | stopped (before : List Exchange) (last : Exchange) (fault : Fault) (outcome : Outcome Installed)
      (hplan : (before ++ [last]).map Exchange.call <+: installPlan table spec requested)
      (hbefore : ∀ x ∈ before, x.outcome.fault? = none)
      (hlast : last.outcome.fault? = some fault) (houtcome : outcome.fault? = some fault) :
      InstallCourse table spec requested (before ++ [last]) outcome
  | refused (found : String) (h : ¬ requested.toList <+: found.toList) :
      InstallCourse table spec requested (reported table spec requested found)
        (.failed (.versionMismatch spec.package requested found))
  | accepted (found : String) (h : requested.toList <+: found.toList) :
      InstallCourse table spec requested (reported table spec requested found)
        (.ok ⟨spec.package, found⟩)

variable {σ : Type}

/-- What is asked first comes first; what is asked after it is asked only if it was answered well. -/
theorem exists_exchanges_ask {α : Type} {host : Host σ} {call : Call}
    {next : call.Result → Act σ α} (P : List Exchange → Outcome α → Prop)
    (hstop : ∀ (answer : Outcome call.Result) (fault : Fault) (outcome : Outcome α),
      answer.fault? = some fault → outcome.fault? = some fault → P [⟨call, answer⟩] outcome)
    (hnext : ∀ (a : call.Result) (w : World σ), ∃ made,
      (next a w).2.exchanges = w.exchanges ++ made ∧ P (⟨call, .ok a⟩ :: made) (next a w).1)
    (w : World σ) :
    ∃ made, ((Act.ask host call >>= next) w).2.exchanges = w.exchanges ++ made ∧
      P made ((Act.ask host call >>= next) w).1 := by
  obtain ⟨a, hok, hgo⟩ | ⟨fault, hanswer, hend, hworld⟩ := bind_cases (Act.ask host call) next w
  · obtain ⟨made, hmade, hP⟩ := hnext a (Act.ask host call w).2
    rw [hgo]
    refine ⟨⟨call, .ok a⟩ :: made, ?_, hP⟩
    rw [hmade, World.exchanges_ask, hok, List.append_assoc]
    rfl
  · rw [hworld, World.exchanges_ask]
    exact ⟨_, rfl, hstop _ fault _ hanswer hend⟩

theorem exists_installCourse (host : Host σ) (table : VersionTable) (spec : EngineSpec)
    (requested : String) (w : World σ) :
    ∃ made, (installEngine host table spec requested w).2.exchanges = w.exchanges ++ made ∧
      InstallCourse table spec requested made (installEngine host table spec requested w).1 := by
  let ready : Exchange := ⟨.ensureReady, .ok ()⟩
  let installs : Exchange :=
    ⟨.install (table.resolve spec.package requested).packages, .ok ()⟩
  -- one step for each call of the plan, with the answers so far in front
  have hplan : [ready.call, installs.call, .installedVersion spec.package] =
      installPlan table spec requested := rfl
  refine exists_exchanges_ask (InstallCourse table spec requested) (fun answer fault outcome ha ho =>
    .stopped [] _ fault outcome ⟨_, hplan⟩ (by simp) ha ho) (fun () w => ?_) w
  refine exists_exchanges_ask (fun made => InstallCourse table spec requested (ready :: made))
    (fun answer fault outcome ha ho =>
      .stopped [ready] _ fault outcome ⟨_, hplan⟩ (by simp [ready, Outcome.fault?]) ha ho)
    (fun () w => ?_) w
  refine exists_exchanges_ask
    (fun made => InstallCourse table spec requested (ready :: installs :: made))
    (fun answer fault outcome ha ho => .stopped [ready, installs] _ fault outcome
      ⟨[], hplan⟩ (by simp [ready, installs, Outcome.fault?]) ha ho) (fun found w => ?_) w
  by_cases hfound : beginsWith found requested = true
  · rw [if_pos hfound]
    exact ⟨[], by simp [pure], .accepted found (beginsWith_iff.mp hfound)⟩
  · rw [if_neg hfound]
    exact ⟨[], by simp [Act.fail], .refused found (mt beginsWith_iff.mpr hfound)⟩

theorem isPrefix_iff {requested found : String} :
    requested.toList <+: found.toList ↔ ∃ more, found = requested ++ more := by
  constructor
  · rintro ⟨more, hmore⟩
    refine ⟨String.ofList more, String.toList_inj.mp ?_⟩
    rw [String.toList_append, String.toList_ofList, hmore]
  · rintro ⟨more, rfl⟩
    rw [String.toList_append]
    exact List.prefix_append _ _

theorem reported_inj {table : VersionTable} {spec : EngineSpec} {requested found found' : String}
    (h : reported table spec requested found = reported table spec requested found') :
    found = found' := by
  simpa [reported] using h

/-- What is true of an installation that made certain exchanges. -/
structure FindsVersion (host : Host σ) (table : VersionTable) (spec : EngineSpec)
    (requested : String) (w : World σ) (made : List Exchange) : Prop where
  exchanges : (installEngine host table spec requested w).2.exchanges = w.exchanges ++ made
  course : InstallCourse table spec requested made (installEngine host table spec requested w).1
  /-- It ends well only with the version that was found, and only if that is the one that was asked
  for, with or without more text behind it. -/
  accepts : ∀ installed, (installEngine host table spec requested w).1 = .ok installed →
    installed.package = spec.package ∧ made = reported table spec requested installed.version ∧
      ∃ more, installed.version = requested ++ more
  /-- Any other version that is found is refused. -/
  refuses : ∀ found, made = reported table spec requested found →
    (∀ more, found ≠ requested ++ more) → (installEngine host table spec requested w).1 =
      .failed (.versionMismatch spec.package requested found)

/-- Whatever the host answers, an installation ends well just when the text of the version that is
found begins with the text that was asked for. -/
theorem exists_findsVersion (host : Host σ) (table : VersionTable) (spec : EngineSpec)
    (requested : String) (w : World σ) :
    ∃ made, FindsVersion host table spec requested w made := by
  obtain ⟨made, hmade, hcourse⟩ := exists_installCourse host table spec requested w
  refine ⟨made, hmade, hcourse, fun installed hok => ?_, fun found hfound hother => ?_⟩
  · rw [hok] at hcourse
    cases hcourse with
    | stopped before last fault outcome hplan hbefore hlast houtcome => cases houtcome
    | accepted found h => exact ⟨rfl, rfl, isPrefix_iff.mp h⟩
  · subst hfound
    generalize (installEngine host table spec requested w).1 = outcome at hcourse ⊢
    generalize heq : reported table spec requested found = made at hcourse
    cases hcourse with
    | stopped before last fault outcome hplan hbefore hlast houtcome =>
        have hlast' := congrArg List.getLast? heq
        rw [List.getLast?_concat] at hlast'
        cases hlast'
        cases hlast
    | refused found' h => rw [reported_inj heq]
    | accepted found' h =>
        obtain ⟨more, hmore⟩ := isPrefix_iff.mp h
        exact absurd ((reported_inj heq).trans hmore) (hother more)

/-- The version is of the release that was asked for: what stands behind the text that was asked for
starts with no digit. -/
def IsRelease (requested found : String) : Prop :=
  ∃ more, found.toList = requested.toList ++ more ∧ ∀ c ∈ more.head?, c.isDigit = false

/-- More digits of the last component are accepted. -/
theorem accepts_longer_component :
    let host := Host.running fun _ _ => .ok ⟨"", "", 0⟩
    let w := World.start () ⟨[], []⟩ .listened
    (∃ c ∈ "1.1".toList.getLast?, c.isDigit = true) ∧
      (installEngine host .standard .standard "1.1" w).1 = .ok ⟨"mypy", "1.10.0"⟩ ∧
      ¬ IsRelease "1.1" "1.10.0" := by
  refine ⟨⟨'1', rfl, rfl⟩, by decide +kernel, ?_⟩
  rintro ⟨more, hmore, hdigit⟩
  have hrest : more = ['0', '.', '0'] := List.append_cancel_left hmore.symm
  rw [hrest] at hdigit
  exact absurd (hdigit '0' rfl) (by decide)

end CheckWorker
