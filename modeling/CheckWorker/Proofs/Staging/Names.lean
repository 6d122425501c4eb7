import CheckWorker.Proofs.FileSystem.Places
import CheckWorker.Staging

/-!
# Names that staging accepts

What is accepted is told from the characters of a text and from what stands between its slashes,
without the components of a path.
-/

namespace CheckWorker

open FilePath (Component)

namespace StagingArea

/-- The text is the name of a file, and no path to somewhere else. -/
structure IsFilename (name : String) : Prop where
  ne_empty : name ≠ ""
  slash : '/' ∉ name.toList
  backslash : '\\' ∉ name.toList
  ne_dot : name ≠ "."
  ne_dots : name ≠ ".."

/-- What stands between the slashes of a text. -/
def pieces (text : String) : List String :=
  (text.toList.splitOn '/').map String.ofList

/-- The text leads downwards, and not back to where it starts. -/
structure IsCacheDir (dir : String) : Prop where
  solid : ∃ c ∈ dir.toList, Text.isBlank c = false
  relative : dir.toList.head? ≠ some '/'
  downwards : ".." ∉ pieces dir
  named : ∃ piece ∈ pieces dir, piece ≠ "" ∧ piece ≠ "."

theorem parts_eq_pieces (text : String) : FilePath.parts ⟨text⟩ = pieces text :=
  FilePath.parts_eq ⟨text⟩

theorem mem_steps {text piece : String} :
    piece ∈ FilePath.steps ⟨text⟩ ↔ piece ∈ pieces text ∧ piece ≠ "" ∧ piece ≠ "." := by
  simp [FilePath.steps, parts_eq_pieces]

theorem head?_ne_slash {text : String} (h : '/' ∉ text.toList) : text.toList.head? ≠ some '/' :=
  fun hhead => h (List.mem_of_mem_head? hhead)

theorem isAbsolute_eq_false {text : String} (h : text.toList.head? ≠ some '/') :
    FilePath.isAbsolute ⟨text⟩ = false := by
  simpa [FilePath.isAbsolute] using h

theorem pieces_of_notMem {text : String} (h : '/' ∉ text.toList) : pieces text = [text] := by
  rw [pieces, List.splitOn_eq_singleton h, List.map_singleton, String.ofList_toList]

/-- A text without slashes has one part, which may be a dot or two. -/
theorem components_of_notMem {name : String} (hempty : name ≠ "") (h : '/' ∉ name.toList) :
    FilePath.components ⟨name⟩ =
      if name = "." then [.here] else if name = ".." then [.above] else [.name name] := by
  have hsteps : FilePath.steps ⟨name⟩ = if name = "." then [] else [name] := by
    rw [FilePath.steps, parts_eq_pieces, pieces_of_notMem h]
    by_cases hdot : name = "."
    · simp [hdot]
    · simp [hdot, hempty]
  rw [FilePath.components, FilePath.beginning, isAbsolute_eq_false (head?_ne_slash h),
    parts_eq_pieces, pieces_of_notMem h, hsteps]
  by_cases hdot : name = "."
  · simp [hdot]
  · by_cases hdots : name = ".."
    · simp [hdots, FilePath.componentOf]
    · simp [hdot, hdots, FilePath.componentOf]

theorem acceptsFilename_iff (name : String) : acceptsFilename name = true ↔ IsFilename name := by
  unfold acceptsFilename
  by_cases hbad : name = "" ∨ '/' ∈ name.toList ∨ '\\' ∈ name.toList
  · have hrefused : ¬ IsFilename name := fun h => by
      rcases hbad with hbad | hbad | hbad
      · exact h.ne_empty hbad
      · exact h.slash hbad
      · exact h.backslash hbad
    simp [hrefused, hbad, or_assoc]
  · obtain ⟨hempty, hslash, hback⟩ : name ≠ "" ∧ '/' ∉ name.toList ∧ '\\' ∉ name.toList := by
      simpa using hbad
    rw [if_neg (by simp [hempty, hslash, hback]), components_of_notMem hempty hslash]
    by_cases hdot : name = "."
    · rw [if_pos hdot]
      exact iff_of_false Bool.false_ne_true fun h => h.ne_dot hdot
    · by_cases hdots : name = ".."
      · rw [if_neg hdot, if_pos hdots]
        exact iff_of_false Bool.false_ne_true fun h => h.ne_dots hdots
      · rw [if_neg hdot, if_neg hdots]
        exact iff_of_true rfl ⟨hempty, hslash, hback, hdot, hdots⟩

theorem leadsDown_iff (hasName : Bool) (components : List Component) :
    leadsDown hasName components = true ↔
      .root ∉ components ∧ .above ∉ components ∧
        (hasName = true ∨ ∃ name, .name name ∈ components) := by
  induction components generalizing hasName with
  | nil => simp [leadsDown]
  | cons c components ih => cases c <;> simp [leadsDown, ih]

theorem mem_beginning {p : FilePath} {c : Component} (h : c ∈ p.beginning) :
    c = .root ∧ p.isAbsolute = true ∨ c = .here := by
  unfold FilePath.beginning at h
  split at h
  · next habsolute => exact .inl ⟨List.mem_singleton.mp h, habsolute⟩
  · split at h
    · exact .inr (List.mem_singleton.mp h)
    · cases h

theorem componentOf_eq_name_iff {part name : String} :
    FilePath.componentOf part = .name name ↔ part = name ∧ part ≠ ".." := by
  unfold FilePath.componentOf
  split <;> simp_all

theorem componentOf_eq_above_iff {part : String} :
    FilePath.componentOf part = .above ↔ part = ".." := by
  unfold FilePath.componentOf
  split <;> simp_all

theorem root_mem_components {p : FilePath} :
    Component.root ∈ p.components ↔ p.isAbsolute = true := by
  rw [FilePath.components, List.mem_append]
  constructor
  · rintro (hmem | hmem)
    · exact (mem_beginning hmem).resolve_right (by simp) |>.2
    · obtain ⟨part, -, hpart⟩ := List.mem_map.mp hmem
      unfold FilePath.componentOf at hpart
      split at hpart <;> cases hpart
  · intro habsolute
    exact .inl (by simp [FilePath.beginning, habsolute])

theorem above_mem_components {p : FilePath} :
    Component.above ∈ p.components ↔ ".." ∈ p.steps := by
  have hbeginning : Component.above ∉ p.beginning := fun hmem => by
    simpa using mem_beginning hmem
  simp [FilePath.components, hbeginning, componentOf_eq_above_iff]

theorem name_mem_components {p : FilePath} {name : String} :
    Component.name name ∈ p.components ↔ name ∈ p.steps ∧ name ≠ ".." := by
  have hbeginning : Component.name name ∉ p.beginning := fun hmem => by
    simpa using mem_beginning hmem
  simp only [FilePath.components, List.mem_append, hbeginning, false_or, List.mem_map,
    componentOf_eq_name_iff]
  constructor
  · rintro ⟨part, hpart, rfl, hne⟩
    exact ⟨hpart, hne⟩
  · rintro ⟨hname, hne⟩
    exact ⟨name, hname, rfl, hne⟩

theorem acceptsCacheDir_iff (dir : String) : acceptsCacheDir dir = true ↔ IsCacheDir dir := by
  have hsolid : (!dir.isBlank) = true ↔ ∃ c ∈ dir.toList, Text.isBlank c = false := by
    simp [String.isBlank]
  have hrelative : FilePath.isAbsolute ⟨dir⟩ = true ↔ dir.toList.head? = some '/' := by
    simp [FilePath.isAbsolute]
  have hdown : ".." ∈ FilePath.steps ⟨dir⟩ ↔ ".." ∈ pieces dir := by
    simp [mem_steps]
  rw [acceptsCacheDir, Bool.and_eq_true, hsolid, leadsDown_iff, root_mem_components, hrelative,
    above_mem_components, hdown]
  simp only [name_mem_components, mem_steps, Bool.false_eq_true, false_or]
  constructor
  · rintro ⟨hs, hr, hd, name, ⟨hname, hne⟩, -⟩
    exact ⟨hs, hr, hd, name, hname, hne⟩
  · rintro ⟨hs, hr, hd, name, hname, hne⟩
    exact ⟨hs, hr, hd, name, ⟨hname, hne⟩, fun hdots => hd (hdots ▸ hname)⟩

end StagingArea

end CheckWorker
