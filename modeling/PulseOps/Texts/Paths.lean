import Mathlib.Data.List.Infix
import Mathlib.Data.List.Induction
import Mathlib.Tactic.Common

/-!
# Paths

Absolute paths of POSIX. A path is split at the slashes; empty segments and `.` stay in a
directory, and `..` leaves it, but not the root. What some segments come to does not depend on
where they start: they leave a number of directories and then enter some.

## Main definitions

* `Paths.segments`, `Paths.walk`, `Paths.text` — the segments of a text, the directory they lead
  to, and its text.
* `Paths.leaves`, `Paths.enters` — what segments come to.
* `Paths.Inside` — the text of a path in a directory.
* `Paths.Sibling` — a directory whose name goes on after the name of another one.

## Main results

* `Paths.walk_eq` — a walk leaves directories and enters others.
* `Paths.text_prefix_iff` — when the text of a path begins with that of another one.
* `Paths.inside_of_prefix`, `Paths.not_inside_of_sibling` — which of these are inside.
-/

set_option autoImplicit false

namespace Paths

abbrev Segment := List Char

/-- The segments of a text. -/
def segments (text : List Char) : List Segment := text.splitOn '/'

/-- One segment of a way. -/
def step (directory : List Segment) (segment : Segment) : List Segment :=
  if segment = [] ∨ segment = ['.'] then directory
  else if segment = ['.', '.'] then directory.dropLast
  else directory ++ [segment]

/-- Where the segments lead from a directory. -/
def walk (directory : List Segment) (way : List Segment) : List Segment := way.foldl step directory

/-- The text of an absolute path. -/
def text (path : List Segment) : List Char :=
  if path = [] then ['/'] else path.flatMap fun segment => '/' :: segment

/-! ### Names -/

/-- A segment that is the name of something in a directory. -/
def Name (segment : Segment) : Prop := '/' ∉ segment ∧ segment ≠ []

theorem slash_notMem_segments (text : List Char) : ∀ segment ∈ segments text, '/' ∉ segment := by
  unfold segments
  induction text with
  | nil => simp
  | cons c text ih =>
    rw [List.splitOn_cons_eq_if_modifyHead]
    split_ifs with hc
    · rw [List.forall_mem_cons]
      exact ⟨List.not_mem_nil, ih⟩
    · cases hsplit : text.splitOn '/' with
      | nil => simp
      | cons segment rest =>
        rw [hsplit, List.forall_mem_cons] at ih
        rw [List.modifyHead_cons, List.forall_mem_cons, List.mem_cons, not_or]
        exact ⟨⟨fun heq => hc (beq_iff_eq.mpr heq.symm), ih.1⟩, ih.2⟩

theorem segments_append (text text' : List Char) :
    segments (text ++ '/' :: text') = segments text ++ segments text' :=
  List.splitOn_append_cons_self text text'

/-- Between two slashes in a row there is an empty segment. -/
theorem nil_mem_segments {text : List Char} (h : ['/', '/'] <:+: text) : [] ∈ segments text := by
  obtain ⟨before, after, rfl⟩ := h
  have hsplit : before ++ ['/', '/'] ++ after = before ++ '/' :: ([] ++ '/' :: after) := by simp
  rw [hsplit, segments_append, segments_append]
  simp [segments]

theorem segments_eq_singleton {text : List Char} (h : '/' ∉ text) : segments text = [text] :=
  List.splitOn_eq_singleton h

/-- Names lead down from every directory. -/
theorem walk_of_names {way : List Segment} (directory : List Segment)
    (h : ∀ s ∈ way, s ≠ [] ∧ s ≠ ['.'] ∧ s ≠ ['.', '.']) :
    walk directory way = directory ++ way := by
  induction way generalizing directory with
  | nil => simp [walk]
  | cons segment way ih =>
    obtain ⟨hnil, hdot, hdots⟩ := h segment List.mem_cons_self
    have hstep : step directory segment = directory ++ [segment] := by
      rw [step, if_neg (not_or.mpr ⟨hnil, hdot⟩), if_neg hdots]
    have hway := ih (directory ++ [segment]) fun s hs => h s (List.mem_cons_of_mem _ hs)
    rw [← List.append_cons] at hway
    rw [← hway, ← hstep]
    rfl

theorem names_step {directory : List Segment} {segment : Segment} (h : ∀ s ∈ directory, Name s)
    (hslash : '/' ∉ segment) : ∀ s ∈ step directory segment, Name s := by
  unfold step
  split_ifs with hstay hup
  · exact h
  · exact fun s hs => h s (List.mem_of_mem_dropLast hs)
  · rw [not_or] at hstay
    rw [List.forall_mem_append, List.forall_mem_singleton]
    exact ⟨h, hslash, hstay.1⟩

/-- A walk through segments without a slash passes names only. -/
theorem names_walk {directory way : List Segment} (h : ∀ s ∈ directory, Name s)
    (hway : ∀ s ∈ way, '/' ∉ s) : ∀ s ∈ walk directory way, Name s := by
  induction way generalizing directory with
  | nil => exact h
  | cons segment way ih =>
    rw [List.forall_mem_cons] at hway
    exact ih (names_step h hway.1) hway.2

/-! ### What segments come to -/

/-- How many directories the segments leave, after some have been entered. -/
def leavesFrom (entered : List Segment) : List Segment → ℕ
  | [] => 0
  | segment :: way =>
    (if segment = ['.', '.'] ∧ entered = [] then 1 else 0) + leavesFrom (step entered segment) way

/-- How many directories the segments leave. -/
def leaves (way : List Segment) : ℕ := leavesFrom [] way

/-- The directories that the segments enter. -/
def enters (way : List Segment) : List Segment := walk [] way

private theorem walk_append_eq (directory entered way : List Segment) :
    walk (directory ++ entered) way =
      directory.take (directory.length - leavesFrom entered way) ++ walk entered way := by
  induction way generalizing directory entered with
  | nil => simp [walk, leavesFrom]
  | cons segment way ih =>
    change walk (step (directory ++ entered) segment) way =
      _ ++ walk (step entered segment) way
    rw [leavesFrom]
    by_cases hup : segment = ['.', '.'] ∧ entered = []
    · -- the segment leaves one directory more
      obtain ⟨rfl, rfl⟩ := hup
      have hstep : step (directory ++ []) ['.', '.'] = directory.dropLast ++ [] := by
        simp [step]
      have hnone : step [] ['.', '.'] = [] := by simp [step]
      rw [hstep, hnone, ih, List.dropLast_eq_take, List.take_take, List.length_take]
      simp only [if_pos, and_self]
      congr 2
      omega
    · have hstep : step (directory ++ entered) segment = directory ++ step entered segment := by
        unfold step
        split_ifs with hstay hdots
        · rfl
        · rw [List.dropLast_append_of_ne_nil]
          exact fun hentered => hup ⟨hdots, hentered⟩
        · rw [List.append_assoc]
      rw [hstep, ih, if_neg hup, Nat.zero_add]

/-- A walk leaves directories and enters others. -/
theorem walk_eq (directory way : List Segment) :
    walk directory way = directory.take (directory.length - leaves way) ++ enters way := by
  have h := walk_append_eq directory [] way
  rwa [List.append_nil] at h

/-! ### Texts -/

/-- A directory beside another one, whose name goes on after the name of that one, or something in
it. -/
def Sibling (directory path : List Segment) : Prop :=
  ∃ above name suffix below, directory = above ++ [name] ∧ suffix ≠ [] ∧
    path = above ++ (name ++ suffix) :: below

theorem not_prefix_of_sibling {directory path : List Segment} (h : Sibling directory path) :
    ¬ directory <+: path := by
  obtain ⟨above, name, suffix, below, rfl, hsuffix, rfl⟩ := h
  rw [List.prefix_append_right_inj, List.cons_prefix_cons]
  rintro ⟨hname, -⟩
  exact hsuffix (by simpa using hname)

private def body (path : List Segment) : List Char := path.flatMap fun segment => '/' :: segment

/-- After a name there is nothing or a slash. -/
private theorem body_eq (path : List Segment) :
    body path = [] ∨ ∃ rest, body path = '/' :: rest := by
  cases path with
  | nil => exact .inl rfl
  | cons segment path => exact .inr ⟨segment ++ body path, rfl⟩

/-- Two names that are followed by a slash each. -/
private theorem name_eq_of_append {s t : Segment} {rest : List Char} {path : List Segment}
    (hs : '/' ∉ s) (ht : '/' ∉ t) (h : s ++ '/' :: rest = t ++ body path) :
    s = t ∧ '/' :: rest = body path := by
  rcases List.append_eq_append_iff.mp h with ⟨more, rfl, hrest⟩ | ⟨more, rfl, hrest⟩
  · cases more with
    | nil => exact ⟨by simp, by simpa using hrest⟩
    | cons c more =>
      obtain ⟨rfl, -⟩ := List.cons.inj hrest
      simp at ht
  · cases more with
    | nil => exact ⟨by simp, by simpa using hrest.symm⟩
    | cons c more =>
      rcases body_eq path with hnone | ⟨rest', hslash⟩
      · rw [hnone] at hrest
        cases hrest
      · rw [hslash] at hrest
        obtain ⟨rfl, -⟩ := List.cons.inj hrest
        simp at hs

/-- A name that the rest of a path begins with. -/
private theorem name_prefix {s t : Segment} {path : List Segment} (hs : '/' ∉ s)
    (h : s <+: t ++ body path) : s <+: t := by
  obtain ⟨more, hmore⟩ := h
  rcases List.append_eq_append_iff.mp hmore with ⟨more', rfl, -⟩ | ⟨more', rfl, hrest⟩
  · exact List.prefix_append s more'
  · cases more' with
    | nil => simp
    | cons c more' =>
      rcases body_eq path with hnone | ⟨rest', hslash⟩
      · rw [hnone] at hrest
        cases hrest
      · rw [hslash] at hrest
        obtain ⟨rfl, -⟩ := List.cons.inj hrest
        simp at hs

theorem sibling_singleton_iff {name t : Segment} {path : List Segment} :
    Sibling [name] (t :: path) ↔ name <+: t ∧ name ≠ t := by
  constructor
  · rintro ⟨above, name', suffix, below, hdirectory, hsuffix, hpath⟩
    obtain ⟨rfl, hname⟩ :=
      List.append_inj' (show [] ++ [name] = above ++ [name'] from hdirectory) rfl
    obtain rfl : name = name' := by simpa using hname
    obtain ⟨rfl, -⟩ := List.cons.inj hpath
    exact ⟨List.prefix_append name suffix, by simpa [eq_comm] using hsuffix⟩
  · rintro ⟨⟨suffix, rfl⟩, hne⟩
    exact ⟨[], name, suffix, path, rfl, fun hsuffix => hne (by simp [hsuffix]), rfl⟩

theorem sibling_cons_iff {name t : Segment} {directory path : List Segment}
    (h : directory ≠ []) :
    Sibling (name :: directory) (t :: path) ↔ name = t ∧ Sibling directory path := by
  constructor
  · rintro ⟨above, name', suffix, below, hdirectory, hsuffix, hpath⟩
    cases above with
    | nil => exact absurd (List.cons.inj hdirectory).2 h
    | cons s above =>
      obtain ⟨rfl, rfl⟩ := List.cons.inj hdirectory
      obtain ⟨rfl, rfl⟩ := List.cons.inj hpath
      exact ⟨rfl, above, name', suffix, below, rfl, hsuffix, rfl⟩
  · rintro ⟨rfl, above, name', suffix, below, rfl, hsuffix, rfl⟩
    exact ⟨name :: above, name', suffix, below, rfl, hsuffix, rfl⟩

theorem not_sibling_nil {directory : List Segment} : ¬ Sibling directory [] := by
  rintro ⟨above, name, suffix, below, -, -, hpath⟩
  cases above <;> cases hpath

private theorem body_prefix_iff {directory path : List Segment} (hdirectory : directory ≠ [])
    (hnames : ∀ s ∈ directory, '/' ∉ s) (hnames' : ∀ s ∈ path, '/' ∉ s) :
    body directory <+: body path ↔ directory <+: path ∨ Sibling directory path := by
  induction directory generalizing path with
  | nil => exact absurd rfl hdirectory
  | cons name directory ih =>
    cases path with
    | nil => simp [body, not_sibling_nil]
    | cons t path =>
      rw [List.forall_mem_cons] at hnames hnames'
      have hbody : body (name :: directory) <+: body (t :: path) ↔
          name ++ body directory <+: t ++ body path := by
        simp [body, List.flatMap_cons]
      rw [hbody, List.cons_prefix_cons]
      cases directory with
      -- the last name of the directory may also begin a longer name
      | nil =>
        rw [sibling_singleton_iff]
        have hnil : name ++ body [] = name := by simp [body]
        rw [hnil]
        constructor
        · intro h
          have hbegins := name_prefix hnames.1 h
          by_cases heq : name = t
          · exact .inl ⟨heq, List.nil_prefix⟩
          · exact .inr ⟨hbegins, heq⟩
        · rintro (⟨rfl, -⟩ | ⟨hbegins, -⟩)
          · exact List.prefix_append name (body path)
          · exact hbegins.trans (List.prefix_append t (body path))
      | cons name' directory =>
        rw [sibling_cons_iff (List.cons_ne_nil _ _), ← and_or_left,
          ← ih (List.cons_ne_nil _ _) hnames.2 hnames'.2]
        constructor
        · rintro ⟨more, hmore⟩
          have hcut : name ++ '/' :: (name' ++ body directory ++ more) = t ++ body path := by
            rw [← hmore]
            simp [body]
          obtain ⟨rfl, hrest⟩ := name_eq_of_append hnames.1 hnames'.1 hcut
          refine ⟨rfl, more, ?_⟩
          rw [← hrest]
          simp [body]
        · rintro ⟨rfl, hbegins⟩
          exact (List.prefix_append_right_inj name).mpr hbegins

/-- The text of a path begins with that of another one when the first is inside of the second, or
inside of a sibling whose name goes on. -/
theorem text_prefix_iff {directory path : List Segment} (hdirectory : directory ≠ [])
    (hnames : ∀ s ∈ directory, Name s) (hnames' : ∀ s ∈ path, Name s) :
    text directory <+: text path ↔ directory <+: path ∨ Sibling directory path := by
  rw [text, if_neg hdirectory, text]
  split_ifs with hpath
  · subst hpath
    have hne : ¬ body directory <+: ['/'] := by
      cases directory with
      | nil => exact absurd rfl hdirectory
      | cons name directory =>
        intro h
        have hname : name ++ body directory <+: [] := by
          simpa [body, List.flatMap_cons] using h
        exact (hnames name (by simp)).2 (List.append_eq_nil_iff.mp (List.prefix_nil.mp hname)).1
    constructor
    · intro h
      exact absurd h hne
    · rintro (hbegins | hsibling)
      · exact absurd (List.prefix_nil.mp hbegins) hdirectory
      · exact absurd hsibling not_sibling_nil
  · exact body_prefix_iff hdirectory (fun s hs => (hnames s hs).1) fun s hs => (hnames' s hs).1

/-- The text is that of the directory, or goes on after a slash. -/
def Inside (directory path : List Char) : Prop :=
  path = directory ∨ (if directory = ['/'] then ['/'] else directory ++ ['/']) <+: path

instance (directory path : List Char) : Decidable (Inside directory path) :=
  inferInstanceAs (Decidable (_ ∨ _))

theorem text_cons (name : Segment) (path : List Segment) :
    text (name :: path) = '/' :: (name ++ path.flatMap fun segment => '/' :: segment) := by
  simp [text]

/-- Everything is inside of the root. -/
theorem inside_root (path : List Segment) : Inside (text []) (text path) := by
  right
  rw [if_pos (by simp [text])]
  cases path with
  | nil => exact List.prefix_rfl
  | cons name path =>
    rw [text_cons]
    exact List.prefix_append ['/'] _

theorem text_ne_root {directory : List Segment} (h : directory ≠ [])
    (hnames : ∀ s ∈ directory, Name s) : text directory ≠ ['/'] := by
  cases directory with
  | nil => exact absurd rfl h
  | cons name directory =>
    rw [text_cons]
    intro heq
    have hname := (List.append_eq_nil_iff.mp (List.cons.inj heq).2).1
    exact (hnames name (by simp)).2 hname

theorem inside_of_prefix {directory path : List Segment} (h : directory <+: path) :
    Inside (text directory) (text path) := by
  by_cases hdirectory : directory = []
  · rw [hdirectory]
    exact inside_root path
  · obtain ⟨more, rfl⟩ := h
    cases more with
    | nil => exact .inl (by rw [List.append_nil])
    | cons name more =>
      right
      have hpath : directory ++ name :: more ≠ [] := by simp
      rw [text, if_neg hdirectory, text, if_neg hpath, List.flatMap_append, List.flatMap_cons]
      split_ifs with hroot
      · rw [hroot]
        exact List.prefix_append _ _
      · rw [List.prefix_append_right_inj]
        exact List.prefix_append ['/'] _

theorem not_inside_of_sibling {directory path : List Segment}
    (hnames : ∀ s ∈ directory, Name s) (hnames' : ∀ s ∈ path, Name s)
    (h : Sibling directory path) : ¬ Inside (text directory) (text path) := by
  obtain ⟨above, name, suffix, below, rfl, hsuffix, rfl⟩ := h
  have hne : above ++ [name] ≠ [] := by simp
  have hne' : above ++ (name ++ suffix) :: below ≠ [] := by simp
  -- what comes after the text of the directory is the rest of the name
  have htext : text (above ++ (name ++ suffix) :: below) =
      text (above ++ [name]) ++ (suffix ++ body below) := by
    rw [text, if_neg hne', text, if_neg hne]
    simp [body]
  rintro (heq | hbegins)
  · rw [htext] at heq
    have hnil : suffix = [] ∧ body below = [] := by simpa using heq
    exact hsuffix hnil.1
  · rw [if_neg (text_ne_root hne hnames), htext, List.prefix_append_right_inj] at hbegins
    cases suffix with
    | nil => exact hsuffix rfl
    | cons c suffix =>
      obtain ⟨rfl, -⟩ := List.cons_prefix_cons.mp hbegins
      have hslash := (hnames' (name ++ '/' :: suffix) (by simp)).1
      simp at hslash

end Paths
