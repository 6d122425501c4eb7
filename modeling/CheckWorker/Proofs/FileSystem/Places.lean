import CheckWorker.FileSystem.FilePath
import CheckWorker.FileSystem.FileTree

/-!
# Where paths lead

The parts of a path that are not empty are its names. Taken one after another they lead to a place,
whether or not anything is there. Joining a path and a text puts the names of the text behind those
of the path, and the paths above a path have the first of its names.
-/

namespace CheckWorker

namespace FilePath

/-! ## Names -/

theorem splitFrom_eq (part text : List Char) :
    splitFrom part text = (text.splitOn '/').modifyHead (part.reverse ++ ·) := by
  induction text generalizing part with
  | nil => simp [splitFrom]
  | cons c text ih =>
      rw [splitFrom, List.splitOn_cons_eq_if_modifyHead]
      by_cases hc : c = '/'
      · have hid : (text.splitOn '/').modifyHead (fun x => x) = text.splitOn '/' :=
          congrFun List.modifyHead_id _
        simp [hc, ih, hid]
      · simp [hc, ih, List.modifyHead_modifyHead, Function.comp_def]

theorem parts_eq (p : FilePath) : p.parts = (p.text.toList.splitOn '/').map String.ofList := by
  rw [parts, splitFrom_eq]
  exact congrArg (List.map _) (congrFun List.modifyHead_id _)

theorem names_of_text {p : FilePath} {s t : List Char} (h : p.text.toList = s ++ '/' :: t) :
    p.names = names ⟨String.ofList s⟩ ++ names ⟨String.ofList t⟩ := by
  simp only [names, parts_eq, h, String.toList_ofList, List.splitOn_append_cons_self,
    List.map_append, List.filter_append]

theorem names_empty : names ⟨""⟩ = [] := by
  decide

theorem names_of_notMem {s : String} (hne : s ≠ "") (h : '/' ∉ s.toList) : names ⟨s⟩ = [s] := by
  rw [names, parts_eq, List.splitOn_eq_singleton h, List.map_singleton, String.ofList_toList]
  simp [hne]

theorem filter_names (p : FilePath) : p.names.filter (· != ".") = p.steps := by
  rw [names, steps, List.filter_filter]
  exact List.filter_congr fun _ _ => Bool.and_comm _ _

section

variable {p : FilePath} {s : String} (h : s.toList.head? ≠ some '/')

include h

theorem text_join : (p.join s).text = s ∧ p.text = "" ∨
    (p.join s).text = p.text ++ s ∧ p.text.toList.getLast? = some '/' ∨
      (p.join s).text = p.text ++ "/" ++ s ∧ p.text ≠ "" := by
  unfold join
  by_cases hempty : p.isEmpty = true
  · exact .inl ⟨by simp [hempty], by simpa [isEmpty] using hempty⟩
  · have hne : p.text ≠ "" := by simpa [isEmpty] using hempty
    rw [if_neg (not_or.mpr ⟨h, hempty⟩)]
    split
    · next hslash => exact .inr (.inl ⟨rfl, by simpa [endsInSlash] using hslash⟩)
    · exact .inr (.inr ⟨rfl, hne⟩)

theorem names_join : (p.join s).names = p.names ++ names ⟨s⟩ := by
  rcases text_join (p := p) h with ⟨htext, hempty⟩ | ⟨htext, hslash⟩ | ⟨htext, -⟩
  · have hp : p = ⟨""⟩ := congrArg FilePath.mk hempty
    have hjoin : p.join s = ⟨s⟩ := congrArg FilePath.mk htext
    rw [hjoin, hp, names_empty, List.nil_append]
  · obtain ⟨front, hfront⟩ := List.getLast?_eq_some_iff.mp hslash
    have hjoin : (p.join s).text.toList = front ++ '/' :: s.toList := by
      simp [htext, String.toList_append, hfront]
    rw [names_of_text hjoin, names_of_text hfront, String.ofList_toList]
    simp [names_empty]
  · have hjoin : (p.join s).text.toList = p.text.toList ++ '/' :: s.toList := by
      simp [htext, String.toList_append]
    rw [names_of_text hjoin, String.ofList_toList, String.ofList_toList]

theorem isAbsolute_join : (p.join s).isAbsolute = p.isAbsolute := by
  have hs : (s.toList.head? == some '/') = false := by simpa using h
  rcases text_join (p := p) h with ⟨htext, hempty⟩ | ⟨htext, hslash⟩ | ⟨htext, hne⟩
  · simp [isAbsolute, htext, hempty, hs]
  · have hcons : p.text.toList ≠ [] := by
      intro hnil
      simp [hnil] at hslash
    obtain ⟨c, rest, hrest⟩ := List.exists_cons_of_ne_nil hcons
    simp [isAbsolute, htext, String.toList_append, hrest]
  · have hcons : p.text.toList ≠ [] := by simpa using hne
    obtain ⟨c, rest, hrest⟩ := List.exists_cons_of_ne_nil hcons
    simp [isAbsolute, htext, String.toList_append, hrest]

end

/-! ## Absolute paths -/

theorem slash_notMem_of_mem_splitFrom {part text piece : List Char} (hpart : '/' ∉ part)
    (h : piece ∈ splitFrom part text) : '/' ∉ piece := by
  induction text generalizing part with
  | nil =>
      rw [List.mem_singleton.mp h]
      simpa using hpart
  | cons c text ih =>
      rw [splitFrom] at h
      split at h
      · rcases List.mem_cons.mp h with rfl | h
        · simpa using hpart
        · exact ih List.not_mem_nil h
      · next hc => exact ih (by simp [hpart, Ne.symm hc]) h

/-- A part that leads somewhere is one name. -/
theorem of_mem_steps {p : FilePath} {s : String} (h : s ∈ p.steps) :
    s ≠ "" ∧ s ≠ "." ∧ '/' ∉ s.toList := by
  obtain ⟨hparts, hne⟩ := List.mem_filter.mp h
  obtain ⟨piece, hpiece, rfl⟩ := List.mem_map.mp hparts
  have hslash := slash_notMem_of_mem_splitFrom List.not_mem_nil hpiece
  simp only [bne_iff_ne, Bool.and_eq_true] at hne
  exact ⟨hne.1, hne.2, by rwa [String.toList_ofList]⟩

theorem foldl_join {names : List String} (h : ∀ s ∈ names, s ≠ "" ∧ '/' ∉ s.toList)
    (p : FilePath) : (names.foldl join p).names = p.names ++ names ∧
      (names.foldl join p).isAbsolute = p.isAbsolute := by
  induction names generalizing p with
  | nil => simp
  | cons s names ih =>
      obtain ⟨hne, hslash⟩ := h s List.mem_cons_self
      have hhead : s.toList.head? ≠ some '/' := fun hhead => hslash (List.mem_of_mem_head? hhead)
      obtain ⟨hnames, habs⟩ := ih (fun s hs => h s (List.mem_cons_of_mem _ hs)) (p.join s)
      rw [names_join hhead, names_of_notMem hne hslash] at hnames
      rw [isAbsolute_join hhead] at habs
      exact ⟨by rw [List.foldl_cons, hnames]; simp, habs⟩

theorem names_slash (p : FilePath) : names ⟨p.text ++ "/"⟩ = p.names := by
  have htext : (FilePath.mk (p.text ++ "/")).text.toList = p.text.toList ++ '/' :: [] := by
    simp [String.toList_append]
  rw [names_of_text htext, String.ofList_toList]
  simp [names_empty]

theorem isAbsolute_slash {p : FilePath} (h : p.isAbsolute = true) :
    isAbsolute ⟨p.text ++ "/"⟩ = true := by
  have hhead : p.text.toList.head? = some '/' := by simpa [isAbsolute] using h
  obtain ⟨rest, hrest⟩ := List.head?_eq_some_iff.mp hhead
  simp [isAbsolute, String.toList_append, hrest]

theorem absolute?_eq_some {here p q : FilePath} (h : absolute? here p = some q) :
    ∃ start, (start = here ∨ start = ⟨"/"⟩ ∨ start = ⟨"//"⟩) ∧
      (q = p.steps.foldl join start ∨ q = ⟨(p.steps.foldl join start).text ++ "/"⟩) := by
  unfold absolute? at h
  split at h
  · cases h
  · extract_lets start whole at h
    refine ⟨start, ?_, ?_⟩
    · unfold start
      split
      · split <;> simp
      · exact .inl rfl
    · rw [← Option.some.inj h]
      split
      · exact .inr rfl
      · exact .inl rfl

/-- The absolute form of a path has no single dots, if the working directory has none. -/
theorem plain_of_absolute? {here p q : FilePath} (habs : here.isAbsolute = true)
    (hdot : "." ∉ here.names) (h : absolute? here p = some q) :
    q.isAbsolute = true ∧ "." ∉ q.names := by
  have hsteps : ∀ s ∈ p.steps, s ≠ "" ∧ '/' ∉ s.toList := fun s hs =>
    ⟨(of_mem_steps hs).1, (of_mem_steps hs).2.2⟩
  have hplain : "." ∉ p.steps := fun hmem => (of_mem_steps hmem).2.1 rfl
  obtain ⟨start, hstart, hq⟩ := absolute?_eq_some h
  have hgood : start.isAbsolute = true ∧ "." ∉ start.names := by
    rcases hstart with rfl | rfl | rfl
    · exact ⟨habs, hdot⟩
    · decide
    · decide
  obtain ⟨hnames, hsame⟩ := foldl_join hsteps start
  have hwhole : "." ∉ (p.steps.foldl join start).names := by
    rw [hnames]
    simp [hgood.2, hplain]
  rcases hq with rfl | rfl
  · exact ⟨hsame.trans hgood.1, hwhole⟩
  · rw [names_slash]
    exact ⟨isAbsolute_slash (hsame.trans hgood.1), hwhole⟩

theorem names_downTo {l : Location} (h : ∀ s ∈ l, s ≠ "" ∧ '/' ∉ s.toList) :
    names ⟨String.join (l.reverse.map ("/" ++ ·))⟩ = l.reverse ∧
      (l ≠ [] → isAbsolute ⟨String.join (l.reverse.map ("/" ++ ·))⟩ = true) := by
  induction l with
  | nil => exact ⟨names_empty, fun hne => absurd rfl hne⟩
  | cons s l ih =>
      obtain ⟨hnames, habs⟩ := ih fun s hs => h s (List.mem_cons_of_mem _ hs)
      obtain ⟨hne, hslash⟩ := h s List.mem_cons_self
      have htext : (FilePath.mk (String.join ((s :: l).reverse.map ("/" ++ ·)))).text.toList =
          (String.join (l.reverse.map ("/" ++ ·))).toList ++ '/' :: s.toList := by
        simp [String.toList_append]
      refine ⟨?_, fun _ => ?_⟩
      · rw [names_of_text htext, String.ofList_toList, String.ofList_toList, hnames,
          names_of_notMem hne hslash, List.reverse_cons]
      · rw [isAbsolute, htext]
        cases l with
        | nil => rfl
        | cons s' l =>
            have hhead := habs (List.cons_ne_nil s' l)
            rw [isAbsolute, beq_iff_eq] at hhead
            rw [List.head?_append, hhead]
            rfl

/-- The path of a location leads there. -/
theorem names_pathOf {l : Location} (h : ∀ s ∈ l, s ≠ "" ∧ '/' ∉ s.toList) :
    (FileTree.pathOf l).names = l.reverse ∧ (FileTree.pathOf l).isAbsolute = true := by
  unfold FileTree.pathOf
  split
  · next hnil =>
      subst hnil
      decide
  · next hne => exact ⟨(names_downTo h).1, (names_downTo h).2 hne⟩

/-! ## Places -/

/-- Where a name leads from a location, whatever is there. -/
def stepTo (l : Location) (name : String) : Location :=
  if name = "." then l else if name = ".." then l.tail else name :: l

/-- Where several names lead. -/
def follow (l : Location) (names : List String) : Location :=
  names.foldl stepTo l

/-- Where a path leads, seen from the working directory `here`. -/
def place (here : Location) (p : FilePath) : Location :=
  follow (if p.isAbsolute then [] else here) p.names

theorem follow_append (l : Location) (xs ys : List String) :
    follow l (xs ++ ys) = follow (follow l xs) ys :=
  List.foldl_append

/-- Names without two dots lead downwards. -/
theorem follow_eq_append {names : List String} (h : ".." ∉ names) (l : Location) :
    follow l names = (names.filter (· != ".")).reverse ++ l := by
  induction names generalizing l with
  | nil => rfl
  | cons name names ih =>
      have hname : name ≠ ".." := fun hname => h (hname ▸ List.mem_cons_self)
      have hnames : ".." ∉ names := fun hmem => h (List.mem_cons_of_mem _ hmem)
      have hcons : follow l (name :: names) = follow (stepTo l name) names := rfl
      rw [hcons, ih hnames]
      by_cases hdot : name = "."
      · simp [stepTo, hdot]
      · simp [stepTo, hname, hdot]

/-! ## Paths above -/

/-- What is trimmed ends in a slash, unless nothing but the root is left. -/
theorem trimBack_spec (back : List Char) : trimBack back = ['/'] ∨
    (trimBack back = back ∧ back.head? ≠ some '/') ∨
      ∃ trail, back = trail ++ '/' :: trimBack back := by
  fun_induction trimBack back with
  | case1 back h => exact .inl rfl
  | case2 back h ih =>
      rcases ih with hroot | ⟨hself, -⟩ | ⟨trail, hback⟩
      · exact .inl hroot
      · exact .inr (.inr ⟨[], by rw [hself]; rfl⟩)
      · exact .inr (.inr ⟨'/' :: trail, congrArg ('/' :: ·) hback⟩)
  | case3 back ih =>
      rcases ih with hroot | ⟨-, hhead⟩ | ⟨trail, hback⟩
      · exact .inl hroot
      · exact absurd rfl hhead
      · exact .inr (.inr ⟨'.' :: trail, congrArg ('.' :: ·) hback⟩)
  | case4 back hslash _ =>
      refine .inr (.inl ⟨rfl, fun hhead => ?_⟩)
      obtain ⟨rest, hrest⟩ := List.head?_eq_some_iff.mp hhead
      exact hslash rest hrest

theorem trimBack_suffix (back : List Char) (h : trimBack back ≠ ['/']) :
    trimBack back <:+ back := by
  rcases trimBack_spec back with hroot | ⟨hself, -⟩ | ⟨trail, hback⟩
  · exact absurd hroot h
  · exact ⟨[], hself⟩
  · exact ⟨trail ++ ['/'], by rw [List.append_assoc]; exact hback.symm⟩

/-- The path above one is followed by a slash in it, or has no path above itself. -/
theorem parentBack?_spec {back above : List Char} (h : parentBack? back = some above) :
    parentBack? above = none ∨ ∃ more, back = more ++ '/' :: above := by
  unfold parentBack? at h
  split at h
  · cases h
  · next c rest htrim =>
      split at h
      · cases h
      · next hc =>
          obtain rfl := Option.some.inj h
          have hne : trimBack back ≠ ['/'] := fun hroot => hc (List.cons.inj (htrim ▸ hroot)).1
          have hrest : rest.dropWhile (· != '/') <:+ back :=
            (List.dropWhile_suffix _).trans
              ((List.suffix_cons c rest).trans (htrim ▸ trimBack_suffix back hne))
          cases hd : rest.dropWhile (· != '/') with
          | nil => exact .inl (by decide)
          | cons d tail =>
              have hslash : d = '/' := by
                have hhead := List.head?_dropWhile_not (· != '/') rest
                simpa [hd] using hhead
              subst hslash
              rw [hd] at hrest
              rcases trimBack_spec ('/' :: tail) with hroot | ⟨-, hhead⟩ | ⟨trail, htail⟩
              · exact .inl (by rw [hroot]; decide)
              · exact absurd rfl hhead
              · obtain ⟨front, hfront⟩ := hrest
                exact .inr ⟨front ++ trail, by rw [List.append_assoc, ← htail, hfront]⟩

theorem mem_upwards {back b : List Char} (h : b ∈ upwards back) :
    b ≠ [] ∧ (b = back ∨ ∃ more, back = more ++ '/' :: b) := by
  fun_induction upwards back with
  | case1 back hnone => cases h
  | case2 back above hsome ih =>
      cases h with
      | head =>
          refine ⟨?_, .inl rfl⟩
          rintro rfl
          have hempty : parentBack? [] = none := by decide
          rw [hempty] at hsome
          cases hsome
      | tail _ hmem =>
          obtain ⟨hne, hb⟩ := ih hmem
          refine ⟨hne, .inr ?_⟩
          rcases parentBack?_spec hsome with hnone | ⟨more, hmore⟩
          · rw [upwards, hnone] at hmem
            cases hmem
          · rcases hb with rfl | ⟨more', hmore'⟩
            · exact ⟨more, hmore⟩
            · exact ⟨more ++ '/' :: more', by rw [hmore, hmore']; simp⟩

/-- The paths from one upwards begin with itself, where there are any. -/
theorem upward_eq (p : FilePath) :
    p.upward = [] ∨ p.text ≠ "" ∧ ∃ above, p.upward = p :: above := by
  unfold upward
  rw [upwards]
  split
  · exact .inl rfl
  · next above hsome =>
      refine .inr ⟨?_, (upwards above).map fun back => ⟨String.ofList back.reverse⟩, ?_⟩
      · intro hempty
        rw [hempty] at hsome
        cases hsome
      · simp

/-- A path above one leads as far as the first of its names. -/
theorem names_of_mem_upward {p q : FilePath} (h : q ∈ p.upward) :
    q.isAbsolute = p.isAbsolute ∧ q.names <+: p.names := by
  obtain ⟨back, hback, rfl⟩ := List.mem_map.mp h
  obtain ⟨hne, rfl | ⟨more, hmore⟩⟩ := mem_upwards hback
  · simp [isAbsolute]
  · have htext : p.text.toList = back.reverse ++ '/' :: more.reverse := by
      have hrev := congrArg List.reverse hmore
      simpa using hrev
    obtain ⟨c, rest, hrest⟩ := List.exists_cons_of_ne_nil (List.reverse_ne_nil_iff.mpr hne)
    refine ⟨by simp [isAbsolute, htext, hrest], ?_⟩
    rw [names_of_text htext]
    exact List.prefix_append _ _

/-- A location to which the first of the names of a path lead: that of the path or of one above. -/
def Reaches (here : Location) (p : FilePath) (l : Location) : Prop :=
  ∃ names, names <+: p.names ∧ l = follow (if p.isAbsolute then [] else here) names

theorem reaches_place (here : Location) (p : FilePath) : Reaches here p (p.place here) :=
  ⟨p.names, List.prefix_rfl, rfl⟩

theorem reaches_of_mem_upward {p q : FilePath} (h : q ∈ p.upward) (here : Location) :
    Reaches here p (q.place here) := by
  obtain ⟨habs, hnames⟩ := names_of_mem_upward h
  exact ⟨q.names, hnames, by rw [place, habs]⟩

end FilePath

end CheckWorker
