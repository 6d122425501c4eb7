import CheckWorker.Proofs.FileSystem.Places

/-!
# What creating and writing change

A directory is created where nothing was, at the place to which its path leads; creating one with
those above it does so for places on the way. A file is written where there is no directory.
-/

namespace CheckWorker.FileTree

open FilePath (stepTo follow Reaches)

variable {t t' : FileTree} {p : FilePath}

theorem step_eq_stepTo {l m : Location} {name : String} (h : t.step l name = .ok m) :
    m = stepTo l name := by
  unfold step at h
  unfold stepTo
  split at h
  · cases h
  · repeat' split at h
    all_goals simp_all
  · cases h

theorem walk_eq_follow {l m : Location} {names : List String} (h : t.walk l names = .ok m) :
    m = follow l names := by
  induction names generalizing l with
  | nil =>
      cases h
      rfl
  | cons name names ih =>
      cases hstep : t.step l name with
      | error e =>
          simp [walk, hstep, bind, Except.bind] at h
      | ok l' =>
          have hwalk : t.walk l' names = .ok m := by
            simpa [walk, hstep, bind, Except.bind] using h
          rw [ih hwalk, step_eq_stepTo hstep]
          rfl

theorem around_eq_ok {names : List String} {l : Location} {name? : Option String}
    (h : t.around p names = .ok (l, name?)) :
    l = follow (t.start p) names.dropLast ∧ name? = names.getLast? := by
  simp only [around, bind, Except.bind, pure, Except.pure] at h
  split at h
  · cases h
  split at h
  · cases h
  next m hwalk =>
    split at h
    · cases h
      exact ⟨walk_eq_follow hwalk, rfl⟩
    · cases h
    · cases h

/-- The last step to a place, from the directory around it. -/
theorem place_of_around {l m : Location} {name : String}
    (h : t.around p p.names = .ok (l, some name)) (hstep : t.step l name = .ok m) :
    m = p.place t.here := by
  obtain ⟨hl, hname⟩ := around_eq_ok h
  obtain ⟨front, hfront⟩ := List.getLast?_eq_some_iff.mp hname.symm
  rw [step_eq_stepTo hstep, hl, FilePath.place, hfront, List.dropLast_concat,
    FilePath.follow_append]
  rfl

/-! ## Directories -/

theorem makeDirectory_eq_ok (h : t.makeDirectory p = .ok t') :
    t.node? (p.place t.here) = none ∧ t' = t.put (p.place t.here) .directory := by
  rcases haround : t.around p p.names with e | ⟨l, _ | name⟩ <;>
    simp only [makeDirectory, haround, bind, Except.bind] at h
  case error => cases h
  case ok.none => cases h
  case ok.some =>
    split at h
    · cases h
    cases hstep : t.step l name with
    | error e => simp [hstep] at h
    | ok m =>
        have hm := place_of_around haround hstep
        subst hm
        simp only [hstep] at h
        split at h
        · cases h
        · next hnone =>
            cases h
            exact ⟨hnone, rfl⟩

/-- From one tree to another nothing changes, except that there are directories where nothing was
before, at some of certain locations. -/
structure Grows (S : Location → Prop) (t t' : FileTree) : Prop where
  here : t'.here = t.here
  node : ∀ l, t'.node? l = t.node? l ∨
    S l ∧ t.node? l = none ∧ t'.node? l = some .directory

namespace Grows

variable {S S' : Location → Prop} {t'' : FileTree}

theorem refl (S : Location → Prop) (t : FileTree) : Grows S t t :=
  ⟨rfl, fun _ => .inl rfl⟩

theorem trans (h : Grows S t t') (h' : Grows S t' t'') : Grows S t t'' where
  here := h'.here.trans h.here
  node l := by
    rcases h.node l with hsame | ⟨hS, hnone, hdir⟩
    · rcases h'.node l with hsame' | ⟨hS', hnone', hdir'⟩
      · exact .inl (hsame'.trans hsame)
      · exact .inr ⟨hS', hsame ▸ hnone', hdir'⟩
    · rcases h'.node l with hsame' | ⟨-, hnone', -⟩
      · exact .inr ⟨hS, hnone, hsame'.trans hdir⟩
      · rw [hdir] at hnone'
        cases hnone'

theorem mono (h : Grows S t t') (hS : ∀ l, S l → S' l) : Grows S' t t' where
  here := h.here
  node l := (h.node l).imp_right fun ⟨hl, hnone, hdir⟩ => ⟨hS l hl, hnone, hdir⟩

end Grows

theorem grows_put {S : Location → Prop} {l : Location} (hS : S l) (hnone : t.node? l = none) :
    Grows S t (t.put l .directory) where
  here := rfl
  node m := by
    by_cases hm : m = l
    · subst hm
      have hne : m ≠ [] := by
        rintro rfl
        simp at hnone
      exact .inr ⟨hS, hnone, node?_put_same t hne .directory⟩
    · exact .inl (node?_put_other t hm .directory)

theorem grows_makeDirectory {S : Location → Prop} (hS : S (p.place t.here))
    (h : t.makeDirectory p = .ok t') : Grows S t t' := by
  obtain ⟨hnone, rfl⟩ := makeDirectory_eq_ok h
  exact grows_put hS hnone

theorem grows_climb {S : Location → Prop} {paths missing missing' : List FilePath}
    (hS : ∀ p ∈ paths, S (p.place t.here)) (h : t.climb missing paths = .ok (missing', t')) :
    Grows S t t' ∧ ∀ p ∈ missing', p ∈ missing ∨ p ∈ paths := by
  induction paths generalizing missing with
  | nil =>
      cases h
      exact ⟨.refl S t, fun p hp => .inl hp⟩
  | cons p above ih =>
      rw [climb] at h
      split at h
      · next t₁ hmake =>
          cases h
          exact ⟨grows_makeDirectory (hS p List.mem_cons_self) hmake, fun p hp => .inl hp⟩
      · obtain ⟨hgrows, hmissing⟩ := ih (fun q hq => hS q (List.mem_cons_of_mem _ hq)) h
        refine ⟨hgrows, fun q hq => ?_⟩
        rcases hmissing q hq with hq | hq
        · rcases List.mem_cons.mp hq with rfl | hq
          · exact .inr List.mem_cons_self
          · exact .inl hq
        · exact .inr (List.mem_cons_of_mem _ hq)
      · split at h
        · cases h
          exact ⟨.refl S t, fun p hp => .inl hp⟩
        · cases h
      · cases h

theorem grows_makeEach {S : Location → Prop} {paths : List FilePath}
    (hS : ∀ p ∈ paths, S (p.place t.here)) : Grows S t (t.makeEach paths).1 := by
  induction paths generalizing t with
  | nil => exact .refl S t
  | cons p below ih =>
      have hp := hS p List.mem_cons_self
      have hbelow : ∀ q ∈ below, S (q.place t.here) := fun q hq =>
        hS q (List.mem_cons_of_mem _ hq)
      rw [makeEach]
      split
      · next t₁ hmake =>
          have hgrows := grows_makeDirectory hp hmake
          exact hgrows.trans (ih (by rwa [hgrows.here]))
      · split
        · exact ih hbelow
        · exact .refl S t
      · exact .refl S t

/-- Directories are created on the way to the place of a path and there, and nowhere else. -/
theorem grows_makeDirectories (t : FileTree) (p : FilePath) :
    Grows (Reaches t.here p) t (t.makeDirectories p).1 := by
  have hupward : ∀ q ∈ p.upward, Reaches t.here p (q.place t.here) := fun q hq =>
    FilePath.reaches_of_mem_upward hq t.here
  rw [makeDirectories]
  split
  · next missing t₁ hclimb =>
      obtain ⟨hgrows, hmissing⟩ := grows_climb hupward hclimb
      refine hgrows.trans (grows_makeEach fun q hq => ?_)
      rw [hgrows.here]
      exact hupward q ((hmissing q hq).resolve_left List.not_mem_nil)
  · exact .refl _ t

/-! ## Files -/

theorem target_eq_ok {l : Location} (h : t.target p = .ok l) :
    l = p.place t.here ∧ t.node? l ≠ some .directory := by
  rcases haround : t.around p p.names with e | ⟨m, _ | name⟩ <;>
    simp only [target, haround, bind, Except.bind] at h
  case error => cases h
  case ok.none => cases h
  case ok.some =>
    split at h
    · cases h
    cases hstep : t.step m name with
    | error e => simp [hstep] at h
    | ok place =>
        have hplace := place_of_around haround hstep
        simp only [hstep] at h
        split at h
        · cases h
        · next hdir =>
            cases h
            exact ⟨hplace, hdir⟩

theorem write_eq_ok {bytes : ByteArray} (h : t.write p bytes = .ok t') :
    t.node? (p.place t.here) ≠ some .directory ∧ t' = t.put (p.place t.here) (.file bytes) := by
  cases htarget : t.target p with
  | error e => simp [write, htarget, bind, Except.bind] at h
  | ok l =>
      obtain ⟨rfl, hdir⟩ := target_eq_ok htarget
      simp only [write, htarget, bind, Except.bind, pure, Except.pure] at h
      cases h
      exact ⟨hdir, rfl⟩

end CheckWorker.FileTree
