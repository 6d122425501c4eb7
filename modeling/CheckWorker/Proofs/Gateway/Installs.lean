import CheckWorker.Proofs.Gateway.Handling
import CheckWorker.Proofs.Json.Numeral
import CheckWorker.Rehearsal.ScriptedHost
import CheckWorker.Worker

/-!
# What is installed

All that is ever installed is what the table of the worker's configuration has for a version that is
not blank: the one that a request names, or else the standard one of the configuration. One request
leads to one installation at most, and only a request for an engine leads to one.
-/

namespace CheckWorker

open Act

/-- The packages that a call is to install. -/
def Call.packages? : Call → Option (List String)
  | .install packages => some packages
  | _ => none

def Note.packages? : Note → Option (List String)
  | .answered call _ => call.packages?
  | .dropped _ => none
  | .started => none

variable {σ : Type}

/-- The packages of all installations that were tried, in order. -/
def World.installs (w : World σ) : List (List String) :=
  w.notes.toList.filterMap Note.packages?

@[simp] theorem World.installs_emit (w : World σ) (e : Event) : (w.emit e).installs = w.installs :=
  rfl

@[simp] theorem World.installs_drop (host : Host σ) (handle : Handle) (w : World σ) :
    (w.drop host handle).installs = w.installs := by
  simp [installs, Note.packages?]

@[simp] theorem World.installs_release (host : Host σ) (w : World σ) :
    (w.release host).installs = w.installs := by
  cases he : w.engine with
  | uninitialized => rw [release_of_uninitialized host he]
  | ready handle warm =>
      rw [release_of_ready host he, installs_drop]
      rfl

@[simp] theorem Act.installs_ask (host : Host σ) (call : Call) (w : World σ) :
    (Act.ask host call w).2.installs = w.installs ++ call.packages?.toList := by
  cases h : call.packages? <;> simp [World.installs, Note.packages?, h]

/-- Nothing but the installing of packages adds to what was installed. -/
theorem installs_kind (host : Host σ) (past : List (List String)) :
    EngineKind host fun _ x => Keeps (fun w : World σ => w.installs = past) x where
  pure := Keeps.pure
  bind hx hf := Triple.bind hx hf
  fail := Keeps.fail
  look f _ := Keeps.look f
  query call hcall := by
    have hnone : call.packages? = none := by
      cases call with
      | install packages => exact absurd rfl (hcall packages)
      | _ => rfl
    exact Keeps.of_forall fun w hw => by simp [hnone, hw]
  launch spec := Triple.launch (fun _ hw => hw) fun _ => Keeps.of_forall fun w hw => by
    simp [Call.packages?, hw]
  guarding handle hx := hx.guarding fun w hw => by simp [hw]
  release := Keeps.alter fun w hw => by simp [hw]
  hold engine := Keeps.alter fun _ hw => hw
  stage setup check := by
    refine Keeps.of_forall fun w hw => ?_
    unfold Session.stage
    split <;> exact hw

/-- Since certain installations were tried, one more may have been, and no other. -/
def InstallsSince (past : List (List String)) (packages : List String) (w : World σ) : Prop :=
  w.installs = past ∨ w.installs = past ++ [packages]

theorem installs_installEngine (host : Host σ) (table : VersionTable) (spec : EngineSpec)
    (requested : String) (past : List (List String)) :
    let packages := (table.resolve spec.package requested).packages
    Triple (fun w : World σ => w.installs = past) (installEngine host table spec requested)
      (fun _ w => w.installs = past ++ [packages]) (fun _ => InstallsSince past packages)
      (fun _ => InstallsSince past packages) := by
  intro packages
  have before := installs_kind host past
  have after := installs_kind host (past ++ [packages])
  have hinstall : Triple (fun w : World σ => w.installs = past) (Act.ask host (.install packages))
      (fun _ w => w.installs = past ++ [packages]) (fun _ => InstallsSince past packages)
      (fun _ => InstallsSince past packages) := by
    refine Triple.ask fun w hw => ?_
    have hafter : (Act.ask host (.install packages) w).2.installs = past ++ [packages] := by
      rw [Act.installs_ask, hw]
      rfl
    cases (Act.ask host (.install packages) w).1 with
    | ok u => exact hafter
    | failed e => exact .inr hafter
    | panicked p => exact .inr hafter
  refine Triple.bind (Q := fun _ w => w.installs = past) ?_ fun _ => hinstall.bind fun _ =>
    Triple.bind (Q := fun _ w => w.installs = past ++ [packages]) ?_ fun found => ?_
  · exact (before.query .ensureReady (by simp)).afterFault (fun _ _ => .inl) (fun _ _ => .inl)
  · exact (after.query (.installedVersion _) (by simp)).afterFault (fun _ _ => .inr)
      (fun _ _ => .inr)
  · split
    · exact (after.pure _).afterFault (fun _ _ => .inr) (fun _ _ => .inr)
    · exact (after.fail _).afterFault (fun _ _ => .inr) (fun _ _ => .inr)

theorem installs_init (host : Host σ) (setup : Setup) (requested : String)
    (past : List (List String)) :
    let packages := (setup.table.resolve setup.spec.package requested).packages
    Triple (fun w : World σ => w.installs = past) (Session.init host setup requested)
      (fun _ => InstallsSince past packages) (fun _ => InstallsSince past packages)
      (fun _ => InstallsSince past packages) := by
  intro packages
  have before := installs_kind host past
  have after := installs_kind host (past ++ [packages])
  refine Triple.bind (Q := fun _ w => w.installs = past) ?_ fun _ =>
    (installs_installEngine host setup.table setup.spec requested past).bind fun installed => ?_
  · exact before.release.afterFault (fun _ _ => .inl) (fun _ _ => .inl)
  · exact (after.bind (after.launch _) fun handle =>
      after.bind (after.guarding handle (after.versions _)) fun _ =>
        after.bind (after.hold _) fun _ => after.pure _).after
      (fun _ _ => .inr) (fun _ _ => .inr) (fun _ _ => .inr)

namespace Gateway

variable (host : Host σ) (g : Gateway)

theorem installs_dispatch (r : Request) (w : World σ) :
    (g.dispatch host r w).2.installs = w.installs ∨
      ∃ version?, r = .init version? ∧ (g.dispatch host r w).2.installs =
        w.installs ++ [(g.setup.table.resolve g.setup.spec.package
          (g.versionFor version?)).packages] := by
  have hkind := installs_kind host w.installs
  have hemit (e : Event) : Keeps (fun w' : World σ => w'.installs = w.installs)
      (Act.alter (World.emit · e)) := Keeps.alter fun _ hw => hw
  cases r with
  | init version? =>
      have hinit := (installs_init host g.setup (g.versionFor version?) w.installs).bind
        fun versions => Keeps.alter (f := (World.emit · (.initDone versions))) fun _ hw => hw
      exact (hinit.apply rfl).imp_right fun h => ⟨version?, rfl, h⟩
  | warmup => exact .inl ((hkind.bind hkind.warmUp fun imported => hemit _).apply rfl)
  | check check =>
      exact .inl ((hkind.bind (hkind.runCheck _ _ (hemit _)) fun result => hemit _).apply rfl)

/-- While an item is handled, nothing is installed unless it asks for an engine, and then it is what
the table has for the version that is meant. -/
theorem installs_handleInbound (item : Inbound) (w : World σ) :
    (g.handleInbound host item w).installs = w.installs ∨
      ∃ version?, item.read = .ok (.init version?) ∧ (g.handleInbound host item w).installs =
        w.installs ++ [(g.setup.table.resolve g.setup.spec.package
          (g.versionFor version?)).packages] := by
  rw [handleInbound_eq]
  cases item.read with
  | error fault => exact .inl rfl
  | ok r =>
      have hhandle : (g.handle host r w).installs = (g.dispatch host r w).2.installs := by
        rw [World.installs, handle_notes, World.installs]
      rw [hhandle]
      exact (installs_dispatch host g r w).imp_right fun ⟨version?, hr, h⟩ =>
        ⟨version?, congrArg Except.ok hr, h⟩

end Gateway

/-! ## The version -/

/-- The text has a character that is not blank. -/
def IsSolid (version : String) : Prop :=
  ∃ c ∈ version.toList, Text.isBlank c = false

theorem isBlank_eq_false_iff {version : String} : version.isBlank = false ↔ IsSolid version := by
  simp [String.isBlank, IsSolid]

/-- The version that is meant by a request: the one that it names, or else the standard one. -/
inductive Chosen (standard : String) : Option String → String → Prop
  | named (version : String) (h : IsSolid version) : Chosen standard (some version) version
  | standard (version? : Option String) (h : ∀ version ∈ version?, ¬ IsSolid version) :
      Chosen standard version? standard

theorem Gateway.chosen_versionFor (g : Gateway) (version? : Option String) :
    Chosen g.standardVersion version? (g.versionFor version?) := by
  cases version? with
  | none => exact .standard none (by simp)
  | some version =>
      cases hb : version.isBlank with
      | false =>
          have hfor : g.versionFor (some version) = version := by
            simp [versionFor, Option.filter, hb]
          rw [hfor]
          exact .named version (isBlank_eq_false_iff.mp hb)
      | true =>
          have hfor : g.versionFor (some version) = g.standardVersion := by
            simp [versionFor, Option.filter, hb]
          rw [hfor]
          refine .standard _ fun v hv hsolid => ?_
          cases hv
          rw [← isBlank_eq_false_iff, hb] at hsolid
          cases hsolid

theorem Chosen.isSolid {standard version : String} {version? : Option String}
    (h : Chosen standard version? version) (hs : IsSolid standard) : IsSolid version := by
  cases h with
  | named _ h => exact h
  | standard _ _ => exact hs

/-! ## The packages -/

namespace VersionTable

/-- What a table has for a version of a package: the artifact that it pins for just this version,
with its pinned auxiliary packages, or else the version itself, with the others. -/
inductive Offers (t : VersionTable) (package version : String) : String → Prop
  | artifact (e : VersionEntry) (hm : e ∈ t.entries) (hv : e.version = version)
      (hf : t.find? version = some e) : Offers t package version e.artifact
  | pinned (e : VersionEntry) (hf : t.find? version = some e) (p : String)
      (hp : p ∈ t.pinnedAuxiliary) : Offers t package version p
  | directive (hf : ∀ e ∈ t.entries, e.version ≠ version) :
      Offers t package version (package ++ "==" ++ version)
  | fallback (hf : ∀ e ∈ t.entries, e.version ≠ version) (p : String)
      (hp : p ∈ t.fallbackAuxiliary) : Offers t package version p

theorem offers_of_mem_resolve {t : VersionTable} {package version p : String}
    (h : p ∈ (t.resolve package version).packages) : t.Offers package version p := by
  cases hf : t.find? version with
  | none =>
      have hnone : ∀ e ∈ t.entries, e.version ≠ version := by
        simpa [find?, List.find?_eq_none] using hf
      simp only [resolve, hf, List.mem_cons] at h
      rcases h with rfl | h
      · exact .directive hnone
      · exact .fallback hnone p h
  | some e =>
      simp only [resolve, hf, List.mem_cons] at h
      rcases h with rfl | h
      · exact .artifact e (List.mem_of_find?_eq_some hf)
          (by simpa using List.find?_some hf) hf
      · exact .pinned e hf p h

end VersionTable

/-! ## A run -/

/-- The packages that are installed for a request that names a version or does not. -/
structure Configuration.Orders (c : Configuration) (version? : Option String) (version : String)
    (packages : List String) : Prop where
  chosen : Chosen c.standardVersion version? version
  solid : IsSolid version
  packages_eq : packages = (c.table.resolve c.engine.package version).packages
  offered : ∀ p ∈ packages, c.table.Offers c.engine.package version p

/-- What may be installed while an item is handled. -/
inductive Configuration.Installs (c : Configuration) (item : Inbound) : List (List String) → Prop
  | nothing : Installs c item []
  | once (version? : Option String) (h : item.read = .ok (.init version?)) (version : String)
      (packages : List String) (ho : c.Orders version? version packages) :
      Installs c item [packages]

namespace Gateway

variable {c : Configuration}

theorem orders_versionFor (hsolid : IsSolid c.standardVersion) (area : StagingArea)
    (version? : Option String) :
    let g := Worker.gateway c area
    c.Orders version? (g.versionFor version?)
      (g.setup.table.resolve g.setup.spec.package (g.versionFor version?)).packages := by
  intro g
  have hchosen : Chosen c.standardVersion version? (g.versionFor version?) :=
    g.chosen_versionFor version?
  exact ⟨hchosen, hchosen.isSolid hsolid, rfl, fun p hp => VersionTable.offers_of_mem_resolve hp⟩

/-- What was installed while an item was handled, in a certain world. -/
structure InstalledFor (host : Host σ) (c : Configuration) (area : StagingArea) (w : World σ)
    (item : Inbound) (batch : List (List String)) : Prop where
  installs : ((Worker.gateway c area).handleInbound host item w).installs = w.installs ++ batch
  permitted : c.Installs item batch

theorem exists_installed (hsolid : IsSolid c.standardVersion) (host : Host σ) (area : StagingArea)
    (w : World σ) (item : Inbound) : ∃ batch, InstalledFor host c area w item batch := by
  rcases installs_handleInbound host (Worker.gateway c area) item w with
    hsame | ⟨version?, hread, hmore⟩
  · exact ⟨[], by simpa using hsame, .nothing⟩
  · exact ⟨_, hmore, .once version? hread _ _ (orders_versionFor hsolid area version?)⟩

theorem exists_batches (hsolid : IsSolid c.standardVersion) (host : Host σ) (area : StagingArea)
    (items : List Inbound) (w : World σ) :
    ∃ batches : List (List (List String)),
      ((Worker.gateway c area).handleAll host items w).installs =
        w.installs ++ batches.flatten ∧
      batches.length = items.length ∧
      ∀ (i : Nat) (item : Inbound) (batch : List (List String)), items[i]? = some item →
        batches[i]? = some batch →
          InstalledFor host c area ((Worker.gateway c area).handleAll host (items.take i) w) item
            batch := by
  induction items generalizing w with
  | nil => exact ⟨[], by simp, rfl, by simp⟩
  | cons item items ih =>
      obtain ⟨batch, hbatch⟩ := exists_installed hsolid host area w item
      obtain ⟨batches, hinstalls, hlength, hbatches⟩ :=
        ih ((Worker.gateway c area).handleInbound host item w)
      refine ⟨batch :: batches, by simp [hinstalls, hbatch.installs], by simp [hlength], ?_⟩
      intro i other b hi hb
      cases i with
      | zero =>
          cases hi
          cases hb
          exact hbatch
      | succ i => exact hbatches i other b hi hb

/-- However a worker was configured, whatever comes in and whatever the host does, each item leads
to one installation at most, and what is installed is what the configuration's table has for a
version that is not blank. -/
theorem installs_handleAll {env : Environment} {a : Arguments} {files : FileTree}
    (hc : (Configuration.resolve env a files).1 = .ok c) (area : StagingArea) (host : Host σ)
    (items : List Inbound) (state : σ) (files' : FileTree) (channel : Channel) :
    let g := Worker.gateway c area
    let w := World.start state files' channel
    ∃ batches : List (List (List String)),
      (g.handleAll host items w).installs = batches.flatten ∧
      batches.length = items.length ∧
      ∀ (i : Nat) (item : Inbound) (batch : List (List String)), items[i]? = some item →
        batches[i]? = some batch →
          InstalledFor host c area (g.handleAll host (items.take i) w) item batch := by
  have hsolid : IsSolid c.standardVersion :=
    isBlank_eq_false_iff.mp (Configuration.standardVersion_of_resolve (Prod.ext hc rfl))
  exact exists_batches hsolid host area items (World.start state files' channel)

/-- A worker is asked for an engine without a version, with a blank one, and with a solid one. -/
theorem installs_of_three_requests :
    let env : Environment := ⟨some "/home/u", none, none, none, none, none⟩
    let a : Arguments := ⟨[(.standardVersion, "1.9.0")], []⟩
    let c := Configuration.ofParts a ⟨"/home/u/.pycheck"⟩ .standard
    let g := Worker.gateway c ⟨⟨"/app"⟩⟩
    let w := World.start ScriptedHost.standing ⟨[], []⟩ .listened
    let items := [Inbound.request (.init none), .line "init", .request (.init (some " ")),
      .request (.init (some "1.11"))]
    (Configuration.resolve env a ⟨[], []⟩).1 = .ok c ∧
      ∃ batches : List (List (List String)),
        (g.handleAll ScriptedHost.host items w).installs = batches.flatten ∧
        batches.length = items.length ∧
        ∀ (i : Nat) (item : Inbound) (batch : List (List String)), items[i]? = some item →
          batches[i]? = some batch →
            InstalledFor ScriptedHost.host c ⟨⟨"/app"⟩⟩
              (g.handleAll ScriptedHost.host (items.take i) w) item batch := by
  intro env a c g w items
  have hc : (Configuration.resolve env a ⟨[], []⟩).1 = .ok c :=
    Json.toOption_eq_some_iff.mp (by decide +kernel)
  exact ⟨hc, installs_handleAll hc _ _ items _ _ _⟩

end Gateway

end CheckWorker
