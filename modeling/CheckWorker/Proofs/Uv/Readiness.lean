import CheckWorker.Proofs.Uv.Errands

/-!
# Making the host ready

The tool is looked for if it is not known, and with it the virtual environment is made if its
interpreter is missing. A host that knows the tool and has the interpreter is ready as it is: it
runs nothing and stays what it was.
-/

namespace CheckWorker.UvHost

variable {π : Type} {programs : Programs π} {settings : UvSettings} {env : Environment}
  {s : UvHost (Recorded π)} {files : FileTree} {uv : FilePath}

/-- The directory of the virtual environment can be put somewhere. -/
def HasRoom (settings : UvSettings) (files : FileTree) : Prop :=
  ∀ parent ∈ settings.runtimeDir.parent?, (files.makeDirectories parent).2 = .ok ()

theorem hasRoom_iff : HasRoom settings files ↔ (makeRoom settings files).2 = .ok () := by
  rw [HasRoom, makeRoom]
  cases settings.runtimeDir.parent? with
  | none => simp
  | some parent => simp

theorem findUv_of_found (h : (s.uv <|> Uv.locate? env files) = some uv) :
    findUv env s files = { outcome := .ok (), state := { s with uv := some uv }, files } := by
  have hstate : Job.state s files = { outcome := .ok s, state := s, files } := rfl
  have hfiles : Job.files s files = { outcome := .ok files, state := s, files } := rfl
  rw [findUv, Job.bind_of_silent hstate]
  cases hs : s.uv with
  | some known =>
      rw [hs] at h
      obtain rfl : known = uv := Option.some.inj h
      have hsame : { s with uv := some known } = s := by rw [← hs]
      rw [hsame]
      rfl
  | none =>
      rw [hs] at h
      have hlocate : Uv.locate? env files = some uv := h
      simp only [Job.bind_of_silent hfiles, hlocate]
      rfl

theorem findUv_of_none (h : (s.uv <|> Uv.locate? env files) = none) :
    findUv env s files =
      { outcome := .failed (.hostUnavailable Uv.notFoundText), state := s, files } := by
  have hstate : Job.state s files = { outcome := .ok s, state := s, files } := rfl
  have hfiles : Job.files s files = { outcome := .ok files, state := s, files } := rfl
  rw [findUv, Job.bind_of_silent hstate]
  cases hs : s.uv with
  | some known =>
      rw [hs] at h
      cases h
  | none =>
      rw [hs] at h
      have hlocate : Uv.locate? env files = none := h
      simp only [Job.bind_of_silent hfiles, hlocate]
      rfl

theorem ensureReady_of_none (programs : Programs (Recorded π)) (settings : UvSettings)
    (h : (s.uv <|> Uv.locate? env files) = none) : ensureReady programs settings env s files =
      { outcome := .failed (.hostUnavailable Uv.notFoundText), state := s, files } := by
  have hfailed : (findUv env s files).outcome =
      .failed (.hostUnavailable Uv.notFoundText) := by
    rw [findUv_of_none h]
  rw [ensureReady, Job.bind_of_failed hfailed, findUv_of_none h]

theorem ensureReady_of_found (programs : Programs (Recorded π)) (settings : UvSettings)
    (h : (s.uv <|> Uv.locate? env files) = some uv) : ensureReady programs settings env s files =
      if files.isThere (interpreter settings.runtimeDir) then
        { outcome := .ok (), state := { s with uv := some uv }, files }
      else makeRuntime programs settings { s with uv := some uv } files := by
  have hfiles : Job.files { s with uv := some uv } files =
      { outcome := .ok files, state := { s with uv := some uv }, files } := rfl
  rw [ensureReady, Job.bind_of_silent (findUv_of_found h), Job.bind_of_silent hfiles]
  split <;> rfl

theorem ensureReady_of_known (programs : Programs (Recorded π)) (settings : UvSettings)
    {s : UvHost (Recorded π)} (h : s.uv.isSome = true) (env env' : Environment)
    (files : FileTree) :
    ensureReady programs settings env' s files = ensureReady programs settings env s files := by
  obtain ⟨uv, hs⟩ := Option.isSome_iff_exists.mp h
  have hfound (env : Environment) : (s.uv <|> Uv.locate? env files) = some uv := by
    rw [hs]
    rfl
  rw [ensureReady_of_found programs settings (hfound env'),
    ensureReady_of_found programs settings (hfound env)]

theorem ensureReady_of_there (h : s.uv.isSome = true)
    (hthere : files.isThere (interpreter settings.runtimeDir) = true) :
    ensureReady programs.recording settings env s files =
      { outcome := .ok (), state := s, files } := by
  obtain ⟨uv, hs⟩ := Option.isSome_iff_exists.mp h
  have hfound : (s.uv <|> Uv.locate? env files) = some uv := by
    rw [hs]
    rfl
  have hsame : { s with uv := some uv } = s := by rw [← hs]
  rw [ensureReady_of_found programs.recording settings hfound, if_pos hthere, hsame]

/-- What is known of a call that makes the host ready and has run some errands for it. -/
structure Readies (programs : Programs π) (settings : UvSettings) (env : Environment)
    (s : UvHost (Recorded π)) (files : FileTree) (runs : List Run) : Prop where
  ran : Ran settings s (ensureReady programs.recording settings env s files) runs
  uv_eq : (ensureReady programs.recording settings env s files).state.uv =
    (s.uv <|> Uv.locate? env files)
  only : (runs.map Run.errand).Sublist [.venv]
  venv_iff : .venv ∈ runs.map Run.errand ↔ (s.uv <|> Uv.locate? env files).isSome = true ∧
    files.isThere (interpreter settings.runtimeDir) = false ∧ HasRoom settings files
  uv_of_run : ∀ run ∈ runs, (s.uv <|> Uv.locate? env files) = some run.uv
  known_of_ok : (ensureReady programs.recording settings env s files).outcome = .ok () →
    (s.uv <|> Uv.locate? env files).isSome = true
  unavailable : ∀ fault,
    (ensureReady programs.recording settings env s files).outcome.fault? = some fault →
      ∃ detail, fault = .error (.hostUnavailable detail)

/-- A call that ends at once runs nothing. -/
theorem Readies.idle {outcome : Outcome Unit} {s' : UvHost (Recorded π)} {files' : FileTree}
    (h : ensureReady programs.recording settings env s files =
      { outcome, state := s', files := files' })
    (hdeeds : s'.programs.deeds = s.programs.deeds)
    (huv : s'.uv = (s.uv <|> Uv.locate? env files))
    (hnot : ¬ ((s.uv <|> Uv.locate? env files).isSome = true ∧
      files.isThere (interpreter settings.runtimeDir) = false ∧ HasRoom settings files))
    (hok : outcome = .ok () → (s.uv <|> Uv.locate? env files).isSome = true)
    (hfault : ∀ fault, outcome.fault? = some fault →
      ∃ detail, fault = .error (.hostUnavailable detail)) :
    Readies programs settings env s files [] where
  ran := by
    rw [h]
    exact .nil hdeeds rfl
  uv_eq := by rw [h, huv]
  only := List.nil_sublist _
  venv_iff := iff_of_false List.not_mem_nil hnot
  uv_of_run _ hrun := absurd hrun List.not_mem_nil
  known_of_ok := by
    rw [h]
    exact hok
  unavailable := by
    rw [h]
    exact hfault

theorem readies_of_none (programs : Programs π) (settings : UvSettings)
    (h : (s.uv <|> Uv.locate? env files) = none) :
    Readies programs settings env s files [] := by
  apply Readies.idle (ensureReady_of_none programs.recording settings h) rfl
  · rw [h]
    cases hs : s.uv with
    | none => rfl
    | some uv =>
        rw [hs] at h
        cases h
  · rw [h]
    rintro ⟨hknown, -⟩
    cases hknown
  · intro hok
    cases hok
  · rintro _ ⟨⟩
    exact ⟨_, rfl⟩

theorem readies_of_there (programs : Programs π)
    (h : (s.uv <|> Uv.locate? env files) = some uv)
    (hthere : files.isThere (interpreter settings.runtimeDir) = true) :
    Readies programs settings env s files [] := by
  have hready := ensureReady_of_found programs.recording settings h
  rw [if_pos hthere] at hready
  apply Readies.idle hready rfl h.symm
  · rintro ⟨-, hmissing, -⟩
    rw [hthere] at hmissing
    cases hmissing
  · intro _
    rw [h]
    rfl
  · rintro _ ⟨⟩

theorem readies_of_noRoom (programs : Programs π)
    (h : (s.uv <|> Uv.locate? env files) = some uv)
    (hthere : files.isThere (interpreter settings.runtimeDir) = false) {files' : FileTree}
    {e : FileError} (hroom : makeRoom settings files = (files', .error e)) :
    Readies programs settings env s files [] := by
  have hready := ensureReady_of_found programs.recording settings h
  obtain ⟨detail, hparent⟩ := exists_makeRuntimeParent_of_error hroom { s with uv := some uv }
  have hfailed : (makeRuntimeParent settings { s with uv := some uv } files).outcome =
      .failed (.hostUnavailable detail) := by
    rw [hparent]
  have hknown : knownUv { s with uv := some uv } files =
      { outcome := .ok uv, state := { s with uv := some uv }, files } := knownUv_of_known rfl files
  rw [if_neg (by simp [hthere]), makeRuntime, Job.bind_of_silent hknown,
    Job.bind_of_failed hfailed, hparent] at hready
  apply Readies.idle hready rfl h.symm
  · rintro ⟨-, -, hhas⟩
    rw [hasRoom_iff, hroom] at hhas
    cases hhas
  · intro hok
    cases hok
  · rintro _ ⟨⟩
    exact ⟨detail, rfl⟩

theorem exists_readies_of_room (programs : Programs π)
    (h : (s.uv <|> Uv.locate? env files) = some uv)
    (hthere : files.isThere (interpreter settings.runtimeDir) = false) {files' : FileTree}
    (hroom : makeRoom settings files = (files', .ok ())) :
    ∃ result, Readies programs settings env s files [⟨.venv, uv, result⟩] := by
  have hready := ensureReady_of_found programs.recording settings h
  rw [if_neg (by simp [hthere])] at hready
  obtain ⟨result, hran⟩ := exists_ranOne_makeRuntime programs (s := { s with uv := some uv })
    rfl hroom
  rw [← hready] at hran
  refine ⟨result, ?_⟩
  constructor
  case ran => exact ⟨hran.ran.deeds_eq, hran.ran.logs_eq, hran.ran.last⟩
  case uv_eq => exact hran.uv_eq.trans h.symm
  case only => exact List.Sublist.refl _
  case venv_iff =>
    rw [h, hasRoom_iff, hroom]
    exact iff_of_true List.mem_cons_self ⟨rfl, hthere, rfl⟩
  case uv_of_run =>
    intro run hrun
    rw [List.mem_singleton.mp hrun, h]
  case known_of_ok =>
    intro _
    rw [h]
    rfl
  case unavailable =>
    intro fault hfault
    obtain ⟨e, he, rfl⟩ := Option.map_eq_some_iff.mp (hran.fault_eq.symm.trans hfault)
    obtain ⟨detail, rfl⟩ := Errand.exists_of_error?_venv he
    exact ⟨detail, rfl⟩

/-- Making a host ready runs at most one errand, which makes the virtual environment. -/
theorem exists_readies (programs : Programs π) (settings : UvSettings) (env : Environment)
    (s : UvHost (Recorded π)) (files : FileTree) :
    ∃ runs, Readies programs settings env s files runs := by
  cases h : s.uv <|> Uv.locate? env files with
  | none => exact ⟨[], readies_of_none programs settings h⟩
  | some uv =>
      cases hthere : files.isThere (interpreter settings.runtimeDir) with
      | true => exact ⟨[], readies_of_there programs h hthere⟩
      | false =>
          rcases hroom : makeRoom settings files with ⟨files', e | _⟩
          · exact ⟨[], readies_of_noRoom programs h hthere hroom⟩
          · obtain ⟨result, hreadies⟩ := exists_readies_of_room programs h hthere hroom
            exact ⟨_, hreadies⟩

end CheckWorker.UvHost
