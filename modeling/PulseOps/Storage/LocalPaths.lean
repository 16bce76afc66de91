import PulseOps.Model.Storage

/-!
# Paths of local files

`getFullPath` compares texts: a path passes if its text begins with that of the base directory.
This also holds of a directory beside the base directory whose name goes on after its name, as
`storage-backup` does after `storage`. A key gets there if it leaves the base directory and comes
back into such a sibling. Every other key is refused or leads to a path inside.

## Main definitions

* `EntersSibling` — the keys that get there.

## Main results

* `resolve_key` — where a key leads.
* `getFullPath_inside_iff` — the keys for which the path is inside, or refused.
-/

set_option autoImplicit false

namespace PulseOps.Storage

open Paths (Segment Name Sibling Inside segments walk leaves enters)

variable {cwd basePath storageKey : Text} {directory way : List Segment}

/-! ### Where a key leads -/

/-- The base directory. -/
def baseDirectory (cwd basePath : Text) : List Segment :=
  walk [] (segments (resolvedPath cwd [basePath] []))

/-- The segments of a key, without the slashes that it begins with. -/
def keySegments (storageKey : Text) : List Segment := segments (storageKey.dropWhile (· = '/'))

theorem resolvedPath_singleton (cwd basePath : Text) :
    ∃ first, ∀ resolved, resolvedPath cwd [basePath] resolved = first ++ '/' :: resolved := by
  by_cases hempty : basePath = []
  · exact ⟨cwd, fun resolved => by simp [resolvedPath, hempty]⟩
  · by_cases habsolute : ['/'] <+: basePath
    · exact ⟨basePath, fun resolved => by rw [resolvedPath, if_neg hempty, if_pos habsolute]⟩
    · refine ⟨cwd ++ '/' :: basePath, fun resolved => ?_⟩
      rw [resolvedPath, if_neg hempty, if_neg habsolute, resolvedPath]
      simp

/-- An empty segment at the end leads nowhere. -/
theorem walk_concat_nil (directory way : List Segment) :
    walk directory (way ++ [[]]) = walk directory way := by
  simp [walk, Paths.step]

theorem dropWhile_slash_not_absolute (text : Text) : ¬ ['/'] <+: text.dropWhile (· = '/') := by
  intro h
  have hhead := List.head?_dropWhile_not (fun c => decide (c = '/')) text
  cases htext : text.dropWhile (· = '/') with
  | nil =>
    rw [htext] at h
    exact absurd (List.prefix_nil.mp h) (by simp)
  | cons c rest =>
    rw [htext] at h hhead
    obtain ⟨rfl, -⟩ := List.cons_prefix_cons.mp h
    simp at hhead

/-- A key leads from the base directory where its segments lead. -/
theorem resolve_key (cwd basePath storageKey : Text) :
    resolve cwd [basePath, storageKey.dropWhile (· = '/')] =
      Paths.text (walk (baseDirectory cwd basePath) (keySegments storageKey)) := by
  obtain ⟨first, hfirst⟩ := resolvedPath_singleton cwd basePath
  have hbase : baseDirectory cwd basePath = walk [] (segments first) := by
    rw [baseDirectory, hfirst, Paths.segments_append]
    exact walk_concat_nil [] (segments first)
  have hway : segments (resolvedPath cwd [storageKey.dropWhile (· = '/'), basePath] []) =
      segments first ++ (keySegments storageKey ++ [[]]) ∨
      (segments (resolvedPath cwd [storageKey.dropWhile (· = '/'), basePath] []) =
        segments first ++ [[]] ∧ keySegments storageKey = [[]]) := by
    by_cases hempty : storageKey.dropWhile (· = '/') = []
    · right
      rw [resolvedPath, if_pos hempty, hfirst, Paths.segments_append, keySegments, hempty]
      exact ⟨rfl, rfl⟩
    · left
      rw [resolvedPath, if_neg hempty, if_neg (dropWhile_slash_not_absolute storageKey), hfirst,
        Paths.segments_append, Paths.segments_append, keySegments]
      rfl
  have hwalk : ∀ way', walk [] (segments first ++ way') = walk (walk [] (segments first)) way' :=
    fun way' => List.foldl_append
  rw [resolve, List.reverse_cons, List.reverse_singleton, List.singleton_append, hbase]
  rcases hway with hway | ⟨hway, hkey⟩
  · rw [hway, hwalk, walk_concat_nil]
  · rw [hway, hwalk, hkey]

theorem resolve_base (cwd basePath : Text) :
    resolve cwd [basePath] = Paths.text (baseDirectory cwd basePath) := rfl

theorem names_baseDirectory (cwd basePath : Text) : ∀ s ∈ baseDirectory cwd basePath, Name s :=
  Paths.names_walk (by simp) (Paths.slash_notMem_segments _)

/-! ### The way to a sibling -/

/-- The key leaves the directory, comes back through the same directories, and enters one whose
name goes on after that of the directory. -/
def EntersSibling (directory way : List Segment) : Prop :=
  ∃ name suffix below, directory.getLast? = some name ∧ suffix ≠ [] ∧ 0 < leaves way ∧
    enters way = (directory.drop (directory.length - leaves way)).dropLast ++
      (name ++ suffix) :: below

/-- What is left of a directory when at least its last name has been left. -/
private theorem take_drop_concat {above : List Segment} (name : Segment) {m : ℕ}
    (h : m ≤ above.length) :
    (above ++ [name]).take m = above.take m ∧
      ((above ++ [name]).drop m).dropLast = above.drop m := by
  rw [List.take_append_of_le_length h, List.drop_append_of_le_length h, List.dropLast_concat]
  exact ⟨rfl, rfl⟩

theorem sibling_walk_iff :
    Sibling directory (walk directory way) ↔ EntersSibling directory way := by
  rw [Paths.walk_eq]
  constructor
  · rintro ⟨above, name, suffix, below, rfl, hsuffix, hpath⟩
    have hleaves : 0 < leaves way := by
      apply Nat.pos_of_ne_zero
      intro hzero
      -- otherwise the directory has not been left
      rw [hzero, Nat.sub_zero, List.take_length, List.append_assoc, List.append_cancel_left_eq,
        List.singleton_append] at hpath
      have hname : name = name ++ suffix := (List.cons.inj hpath).1
      exact hsuffix (by simpa using hname)
    have hlength : (above ++ [name]).length - leaves way ≤ above.length := by
      rw [List.length_append, List.length_singleton]
      omega
    obtain ⟨htake, hdrop⟩ := take_drop_concat name hlength
    refine ⟨name, suffix, below, List.getLast?_concat, hsuffix, hleaves, ?_⟩
    rw [hdrop]
    rw [htake] at hpath
    have habove := List.take_append_drop ((above ++ [name]).length - leaves way) above
    rw [← List.append_cancel_left_eq (above.take ((above ++ [name]).length - leaves way)),
      ← List.append_assoc, habove]
    exact hpath
  · rintro ⟨name, suffix, below, hname, hsuffix, hleaves, henters⟩
    obtain ⟨above, rfl⟩ := List.getLast?_eq_some_iff.mp hname
    have hlength : (above ++ [name]).length - leaves way ≤ above.length := by
      rw [List.length_append, List.length_singleton]
      omega
    obtain ⟨htake, hdrop⟩ := take_drop_concat name hlength
    refine ⟨above, name, suffix, below, rfl, hsuffix, ?_⟩
    rw [henters, htake, hdrop, ← List.append_assoc, List.take_append_drop]

/-- **Local paths.** The path of a key is inside of the base directory, or refused, exactly when the
key does not enter a sibling. -/
theorem getFullPath_inside_iff (cwd basePath storageKey : Text) :
    (∀ path, getFullPath cwd basePath storageKey = .ok path →
      Inside (resolve cwd [basePath]) path) ↔
    ¬ EntersSibling (baseDirectory cwd basePath) (keySegments storageKey) := by
  have hnames := names_baseDirectory cwd basePath
  have hnames' : ∀ s ∈ walk (baseDirectory cwd basePath) (keySegments storageKey), Name s :=
    Paths.names_walk hnames (Paths.slash_notMem_segments _)
  rw [← sibling_walk_iff]
  unfold getFullPath
  simp only [resolve_key, resolve_base]
  constructor
  · intro h hsibling
    -- the text of a sibling begins with that of the directory
    have hne : baseDirectory cwd basePath ≠ [] := by
      obtain ⟨above, name, suffix, below, heq, -⟩ := hsibling
      rw [heq]
      simp
    have hbegins := (Paths.text_prefix_iff hne hnames hnames').mpr (.inr hsibling)
    exact Paths.not_inside_of_sibling hnames hnames' hsibling (h _ (if_pos hbegins))
  · intro hsibling path hpath
    split_ifs at hpath with hbegins
    cases hpath
    by_cases hroot : baseDirectory cwd basePath = []
    · rw [hroot]
      exact Paths.inside_root _
    · rw [Paths.text_prefix_iff hroot hnames hnames'] at hbegins
      exact Paths.inside_of_prefix (hbegins.resolve_right hsibling)

/-- A key that gets into `storage-backup` from `storage`. -/
theorem storage_backup_passes :
    getFullPath "/srv".toList "/srv/storage".toList "../storage-backup/x".toList =
      .ok "/srv/storage-backup/x".toList ∧
    ¬ Inside (resolve "/srv".toList ["/srv/storage".toList]) "/srv/storage-backup/x".toList := by
  decide +kernel

end PulseOps.Storage
