import PulseOps.Model.Storage
import PulseOps.Texts.Characters

/-!
# Names of uploaded files

Whatever a file was called, the name it gets has up to a hundred letters, digits, underscores and
hyphens and the extension of an image. A name of this kind stays as it is. So the keys that are
made of such names and of UUIDs are well formed, and lead below the directory of their product.

## Main definitions

* `Base` — what `sanitizeFilename` makes of the base of a name.
* `SafeName` — the names that it returns.
* `Below` — keys below the directory of a product.
* `Tail` — what follows on that directory in a key.

## Main results

* `sanitizeBase_base`, `sanitizeBase_eq_self` — bases are made, and left alone.
* `safeName_sanitizeFilename`, `sanitizeFilename_eq_self` — the same of names.
* `key_safe` — keys that pass, and lead below the directory.
* `keys_safe` — names, and the keys made of them.
-/

set_option autoImplicit false

namespace PulseOps.Storage

open scoped Characters

variable {toLowerCase : Text → Text} {text base ext filename : Text} {c d : Char}

/-! ### Runs of one character -/

theorem pair_cons_iff :
    [c, c] <:+: d :: text ↔ (d = c ∧ text.head? = some c) ∨ [c, c] <:+: text := by
  rw [List.infix_cons_iff, List.cons_prefix_cons]
  cases text with
  | nil => simp
  | cons e text => simp [List.cons_prefix_cons, eq_comm]

/-- A text without such a pair stays as it is. -/
theorem collapse_eq_self (h : ¬ [c, c] <:+: text) : collapse c text = text := by
  have hboth : ∀ text : Text, ¬ [c, c] <:+: text → collapseFrom c 0 text = text ∧
      (text.head? ≠ some c → collapseFrom c 1 text = c :: text) := by
    intro text
    induction text with
    | nil => simp [collapseFrom, collapsed]
    | cons d text ih =>
      intro hpair
      rw [pair_cons_iff, not_or, not_and] at hpair
      obtain ⟨hzero, hone⟩ := ih hpair.2
      unfold collapseFrom
      split_ifs with hd
      · subst hd
        exact ⟨hone (hpair.1 rfl), fun hhead => absurd rfl hhead⟩
      · rw [hzero]
        exact ⟨rfl, fun _ => rfl⟩
  exact (hboth text h).1

/-- No two underscores are left side by side. -/
theorem collapse_underscore (text : Text) : ¬ ['_', '_'] <:+: collapse '_' text := by
  have hall : ∀ (text : Text) (run : ℕ), ¬ ['_', '_'] <:+: collapseFrom '_' run text := by
    intro text
    induction text with
    | nil =>
      intro run
      match run with
      | 0 => simp [collapseFrom, collapsed]
      | 1 => simp [collapseFrom, collapsed, pair_cons_iff]
      | _ + 2 => simp [collapseFrom, collapsed, pair_cons_iff]
    | cons d text ih =>
      intro run
      unfold collapseFrom
      split_ifs with hd
      · exact ih (run + 1)
      · match run with
        | 0 => simp [collapsed, pair_cons_iff, hd, ih 0]
        | 1 => simp [collapsed, pair_cons_iff, hd, ih 0]
        | _ + 2 => simp [collapsed, pair_cons_iff, hd, ih 0]
  exact hall text 0

theorem mem_collapse (h : d ∈ collapse c text) : d = c ∨ d = '_' ∨ d ∈ text := by
  have hall : ∀ (text : Text) (run : ℕ), d ∈ collapseFrom c run text →
      d = c ∨ d = '_' ∨ d ∈ text := by
    intro text
    have hrun : ∀ run, d ∈ collapsed c run → d = c ∨ d = '_' := by
      intro run
      unfold collapsed
      split <;> simp +contextual
    induction text with
    | nil =>
      intro run hd
      exact (hrun run hd).imp_right .inl
    | cons e text ih =>
      intro run hd
      unfold collapseFrom at hd
      split_ifs at hd with he
      · rcases ih _ hd with h | h | h
        · exact .inl h
        · exact .inr (.inl h)
        · exact .inr (.inr (List.mem_cons_of_mem _ h))
      · rw [List.mem_append, List.mem_cons] at hd
        rcases hd with h | rfl | h
        · exact (hrun run h).imp_right .inl
        · simp
        · rcases ih _ h with h | h | h
          · exact .inl h
          · exact .inr (.inl h)
          · exact .inr (.inr (List.mem_cons_of_mem _ h))
  exact hall text 0 h

/-! ### Bases -/

/-- What `sanitizeFilename` makes of the base of a name. -/
structure Base (base : Text) : Prop where
  chars : ∀ c ∈ base, nameChar c = true
  length_pos : 1 ≤ base.length
  length_le : base.length ≤ 100
  head : base.head? ≠ some '_'
  noPair : ¬ ['_', '_'] <:+: base

theorem Base.ne_nil (h : Base base) : base ≠ [] :=
  List.ne_nil_of_length_pos h.length_pos

theorem Base.notMem (h : Base base) (hc : nameChar c = false) : c ∉ base := by
  intro hmem
  rw [h.chars c hmem] at hc
  cases hc

theorem base_file : Base ['f', 'i', 'l', 'e'] where
  chars := by decide
  length_pos := by decide
  length_le := by decide
  head := by decide
  noPair := by decide

theorem sanitizeBase_base (text : Text) : Base (sanitizeBase text) := by
  unfold sanitizeBase
  set replaced := text.map fun c => if nameChar c then c else '_' with hreplaced
  set trimmed := ((collapse '_' replaced).dropWhile (· = '.')).dropWhile (· = '_') with htrimmed
  have hchars : ∀ c ∈ trimmed, nameChar c = true := by
    intro c hc
    have hcollapse : c ∈ collapse '_' replaced :=
      (List.dropWhile_sublist _).subset ((List.dropWhile_sublist _).subset hc)
    rcases mem_collapse hcollapse with rfl | rfl | hmem
    · decide
    · decide
    · rw [hreplaced] at hmem
      obtain ⟨e, -, rfl⟩ := List.mem_map.mp hmem
      split_ifs with he
      · exact he
      · decide
  have hsuffix : trimmed <:+ collapse '_' replaced :=
    (List.dropWhile_suffix _).trans (List.dropWhile_suffix _)
  have htake : trimmed.take 100 <+: trimmed := List.take_prefix 100 trimmed
  by_cases hempty : trimmed.take 100 = []
  · rw [if_pos hempty]
    exact base_file
  · rw [if_neg hempty]
    refine ⟨fun c hc => hchars c (htake.subset hc), List.length_pos_of_ne_nil hempty,
      List.length_take_le 100 trimmed, ?_, ?_⟩
    · -- the underscores at the beginning are gone
      rw [List.head?_take, if_neg (by decide)]
      have hhead := List.head?_dropWhile_not (fun c => decide (c = '_'))
        ((collapse '_' replaced).dropWhile (· = '.'))
      rw [← htrimmed] at hhead
      intro h
      rw [h] at hhead
      simp at hhead
    · -- no two underscores stand together since they were collapsed
      intro hpair
      exact collapse_underscore replaced
        ((hpair.trans htake.isInfix).trans hsuffix.isInfix)

theorem dropWhile_eq_self_of_head {p : Char → Bool} (h : ∀ c, text.head? = some c → p c = false) :
    text.dropWhile p = text := by
  cases text with
  | nil => rfl
  | cons c text => rw [List.dropWhile_cons, h c rfl, if_neg Bool.false_ne_true]

/-- A base stays as it is. -/
theorem sanitizeBase_eq_self (h : Base base) : sanitizeBase base = base := by
  have hreplaced : (base.map fun c => if nameChar c then c else '_') = base := by
    rw [List.map_congr_left (g := id), List.map_id]
    intro c hc
    rw [if_pos (h.chars c hc)]
    rfl
  have hdots : base.dropWhile (· = '.') = base := by
    apply dropWhile_eq_self_of_head
    intro c hc
    have hmem : c ∈ base := List.mem_of_mem_head? hc
    have hdot : '.' ∉ base := h.notMem (by decide)
    exact decide_eq_false fun heq => hdot (heq ▸ hmem)
  have hunderscores : base.dropWhile (· = '_') = base := by
    apply dropWhile_eq_self_of_head
    intro c hc
    exact decide_eq_false fun heq => h.head (heq ▸ hc)
  unfold sanitizeBase
  simp only [hreplaced, collapse_eq_self h.noPair, hdots, hunderscores,
    List.take_of_length_le h.length_le, if_neg h.ne_nil]

/-! ### Names -/

/-- The names that `sanitizeFilename` returns. -/
def SafeName (name : Text) : Prop :=
  ∃ base ext, name = base ++ ext ∧ Base base ∧ ext ∈ allowedExtensions

theorem extension_eq (h : ext ∈ allowedExtensions) :
    ∃ letters, ext = '.' :: letters ∧ (∀ c ∈ letters, nameChar c = true) ∧ ext.length ≤ 5 := by
  simp only [allowedExtensions, List.mem_cons, List.not_mem_nil, or_false] at h
  rcases h with rfl | rfl | rfl | rfl | rfl <;> exact ⟨_, rfl, by decide, by decide⟩

/-- There is one dot in a name. -/
theorem count_dot (h : Base base) (hext : ext ∈ allowedExtensions) :
    (base ++ ext).count '.' = 1 := by
  obtain ⟨letters, rfl, hletters, -⟩ := extension_eq hext
  have hbase : '.' ∉ base := h.notMem (by decide)
  have hrest : '.' ∉ letters := by
    intro hmem
    exact absurd (hletters '.' hmem) (by decide)
  simp [List.count_append, List.count_eq_zero.mpr hbase, List.count_eq_zero.mpr hrest]

theorem not_pair_of_count (h : text.count c ≤ 1) : ¬ [c, c] <:+: text := by
  intro hpair
  have hcount := hpair.sublist.count_le c
  simp only [List.count_cons_self, List.count_nil] at hcount
  omega

/-- The last steps leave a name alone. -/
theorem finish_eq (h : Base base) (hext : ext ∈ allowedExtensions) :
    (collapse '.' (base ++ ext)).take 255 = base ++ ext ∧ ¬ ['.', '.'] <:+: base ++ ext := by
  have hpair : ¬ ['.', '.'] <:+: base ++ ext := not_pair_of_count (count_dot h hext).le
  obtain ⟨letters, -, -, hlength⟩ := extension_eq hext
  have hbase := h.length_le
  refine ⟨?_, hpair⟩
  rw [collapse_eq_self hpair, List.take_of_length_le]
  rw [List.length_append]
  omega

/-- The name of the image, with its extension if that is one of an image. -/
theorem sanitizeFilename_of_split (hne : filename ≠ [])
    (hsplit : splitExtension toLowerCase
      ((((filename.splitOn '/').getLastD []).splitOn '\\').getLastD []) = (base, ext)) :
    sanitizeFilename toLowerCase filename =
      sanitizeBase base ++ if ext ∈ allowedExtensions then ext else ['.', 'j', 'p', 'g'] := by
  have hext : (if ext ∈ allowedExtensions then ext else ['.', 'j', 'p', 'g']) ∈
      allowedExtensions := by
    split_ifs with h
    · exact h
    · decide
  obtain ⟨hfinal, hpair⟩ := finish_eq (sanitizeBase_base base) hext
  unfold sanitizeFilename
  rw [if_neg hne]
  dsimp only
  rw [hsplit]
  dsimp only
  rw [hfinal, if_neg hpair]

theorem safeName_sanitizeFilename (toLowerCase : Text → Text) (filename : Text) :
    SafeName (sanitizeFilename toLowerCase filename) := by
  by_cases hempty : filename = []
  · rw [hempty]
    exact ⟨['f', 'i', 'l', 'e'], ['.', 'j', 'p', 'g'], rfl, base_file, by decide⟩
  · rcases hsplit : splitExtension toLowerCase
      ((((filename.splitOn '/').getLastD []).splitOn '\\').getLastD []) with ⟨base, ext⟩
    rw [sanitizeFilename_of_split hempty hsplit]
    refine ⟨sanitizeBase base, _, rfl, sanitizeBase_base base, ?_⟩
    -- whatever is no extension of an image becomes one
    split_ifs with h
    · exact h
    · decide

theorem splitOn_getLastD (h : c ∉ text) : (text.splitOn c).getLastD [] = text := by
  rw [List.splitOn_eq_singleton h]
  rfl

theorem splitExtension_append (hbase : base ≠ []) (hdot : '.' ∉ ext) :
    splitExtension toLowerCase (base ++ '.' :: ext) = (base, toLowerCase ('.' :: ext)) := by
  have hreverse : (base ++ '.' :: ext).reverse = ext.reverse ++ '.' :: base.reverse := by simp
  have hext : ∀ c ∈ ext.reverse, decide (c ≠ '.') = true := by
    intro c hc
    rw [List.mem_reverse] at hc
    exact decide_eq_true fun heq => hdot (heq ▸ hc)
  obtain ⟨d, rest, hrest⟩ := List.exists_cons_of_ne_nil (List.reverse_ne_nil_iff.mpr hbase)
  unfold splitExtension
  rw [hreverse, List.takeWhile_append_of_pos hext, List.dropWhile_append_of_pos hext]
  have hbase' : base = (d :: rest).reverse := by rw [← hrest, List.reverse_reverse]
  rw [List.takeWhile_cons, List.dropWhile_cons, hrest, hbase']
  simp

/-- A name stays as it is. -/
theorem sanitizeFilename_eq_self (hlower : ∀ ext ∈ allowedExtensions, toLowerCase ext = ext)
    {name : Text} (h : SafeName name) : sanitizeFilename toLowerCase name = name := by
  obtain ⟨base, ext, rfl, hbase, hext⟩ := h
  obtain ⟨letters, rfl, hletters, -⟩ := extension_eq hext
  have hnotMem : ∀ c, nameChar c = false → c ≠ '.' → c ∉ base ++ '.' :: letters := by
    intro c hc hdot hmem
    rw [List.mem_append, List.mem_cons] at hmem
    rcases hmem with hmem | rfl | hmem
    · exact hbase.notMem hc hmem
    · exact hdot rfl
    · rw [hletters c hmem] at hc
      cases hc
  have hdot : '.' ∉ letters := fun hmem => absurd (hletters '.' hmem) (by decide)
  have hsplit : splitExtension toLowerCase
      (((((base ++ '.' :: letters).splitOn '/').getLastD []).splitOn '\\').getLastD []) =
      (base, '.' :: letters) := by
    rw [splitOn_getLastD (hnotMem '/' (by decide) (by decide)),
      splitOn_getLastD (hnotMem '\\' (by decide) (by decide)),
      splitExtension_append hbase.ne_nil hdot, hlower _ hext]
  rw [sanitizeFilename_of_split (by simp) hsplit, if_pos hext, sanitizeBase_eq_self hbase]

/-! ### Keys -/

/-- The key leads below the directory of the product, from every directory. -/
def Below (tenantId productId key : Text) : Prop :=
  "tenants/".toList ++ tenantId ++ "/products/".toList ++ productId ++ ['/'] <+: key ∧
    ∀ directory, ∃ below, below ≠ [] ∧ Paths.walk directory (Paths.segments key) =
      directory ++ ["tenants".toList, tenantId, "products".toList, productId] ++ below

/-- Only letters become letters in lower case. -/
theorem isAlpha_of_toLower (h : c.toLower.isLower = true) : c.isAlpha = true := by
  unfold Char.toLower at h
  split at h
  case isTrue hupper => simpa [Char.isAlpha, Char.isUpper] using .inl hupper
  case isFalse => simp [Char.isAlpha, h]

theorem nameChar_of_uuidLike {id : Text} (h : uuidLike id = true) :
    ∀ c ∈ id, nameChar c = true := by
  intro c hc
  simp only [uuidLike, Bool.and_eq_true, List.all_eq_true] at h
  have hchar := h.2 c hc
  simp only [Bool.or_eq_true, decide_eq_true_eq] at hchar
  rcases hchar with (hdigit | hletter) | hhyphen
  · simp [nameChar, Char.isAlphanum, hdigit]
  · -- a letter in upper case is one too
    have hlower : c.toLower.isLower = true := by
      simp only [List.mem_cons, List.not_mem_nil, or_false] at hletter
      rcases hletter with h | h | h | h | h | h <;> rw [h] <;> decide
    simp [nameChar, Char.isAlphanum, isAlpha_of_toLower hlower]
  · simp [nameChar, hhyphen]

theorem ne_nil_of_uuidLike {id : Text} (h : uuidLike id = true) : id ≠ [] := by
  simp only [uuidLike, Bool.and_eq_true, decide_eq_true_eq] at h
  apply List.ne_nil_of_length_pos
  rw [h.1]
  decide

theorem notMem_of_chars {p : Char → Bool} (h : ∀ c ∈ text, p c = true) (hd : p d = false) :
    d ∉ text := by
  intro hmem
  rw [h d hmem] at hd
  cases hd

/-- What follows on the directory of a product: some names, and one dot. -/
structure Tail (rest : Text) : Prop where
  chars : ∀ c ∈ rest, (nameChar c || c = '.' || c = '/') = true
  dot : rest.count '.' = 1
  segments : ∀ s ∈ Paths.segments rest, s ≠ [] ∧ s ≠ ['.'] ∧ s ≠ ['.', '.']

/-- Keys of this form pass, and lead below the directory. -/
theorem key_safe {tenantId productId rest : Text} (htenant : uuidLike tenantId = true)
    (hproduct : uuidLike productId = true) (hrest : Tail rest) {key : Text}
    (hkey : key =
      "tenants/".toList ++ tenantId ++ "/products/".toList ++ productId ++ '/' :: rest) :
    assertTenantScopedKey key = .ok () ∧ Below tenantId productId key := by
  have htenantChars := nameChar_of_uuidLike htenant
  have hproductChars := nameChar_of_uuidLike hproduct
  have htenantSlash : '/' ∉ tenantId := notMem_of_chars htenantChars (by decide)
  have hproductSlash : '/' ∉ productId := notMem_of_chars hproductChars (by decide)
  have hsegments : Paths.segments key =
      ["tenants".toList, tenantId, "products".toList, productId] ++ Paths.segments rest := by
    have hform : key = "tenants".toList ++ '/' :: (tenantId ++ '/' :: ("products".toList ++ '/' ::
        (productId ++ '/' :: rest))) := by
      rw [hkey]
      simp
    rw [hform, Paths.segments_append, Paths.segments_append, Paths.segments_append,
      Paths.segments_append, Paths.segments_eq_singleton htenantSlash,
      Paths.segments_eq_singleton hproductSlash, Paths.segments_eq_singleton (by decide),
      Paths.segments_eq_singleton (by decide)]
    rfl
  have hchars : ∀ c ∈ key, (nameChar c || c = '.' || c = '/') = true := by
    intro c hc
    rw [hkey] at hc
    simp only [List.mem_append, List.mem_cons] at hc
    rcases hc with (((hc | hc) | hc) | hc) | rfl | hc
    · revert c
      decide
    · simp [htenantChars c hc]
    · revert c
      decide
    · simp [hproductChars c hc]
    · decide
    · exact hrest.chars c hc
  have hnames : ∀ s ∈ Paths.segments key, s ≠ [] ∧ s ≠ ['.'] ∧ s ≠ ['.', '.'] := by
    have hid : ∀ id : Text, uuidLike id = true → id ≠ [] ∧ id ≠ ['.'] ∧ id ≠ ['.', '.'] := by
      intro id huuid
      have hdot : '.' ∉ id := notMem_of_chars (nameChar_of_uuidLike huuid) (by decide)
      refine ⟨ne_nil_of_uuidLike huuid, ?_, ?_⟩ <;> rintro rfl <;> simp at hdot
    intro s hs
    rw [hsegments, List.mem_append] at hs
    rcases hs with hs | hs
    · simp only [List.mem_cons, List.not_mem_nil, or_false] at hs
      rcases hs with rfl | rfl | rfl | rfl
      · decide
      · exact hid s htenant
      · decide
      · exact hid s hproduct
    · exact hrest.segments s hs
  have hdots : ¬ ['.', '.'] <:+: key := by
    apply not_pair_of_count
    have htenantDot : '.' ∉ tenantId := notMem_of_chars htenantChars (by decide)
    have hproductDot : '.' ∉ productId := notMem_of_chars hproductChars (by decide)
    simp [hkey, List.count_append, List.count_eq_zero.mpr htenantDot,
      List.count_eq_zero.mpr hproductDot, hrest.dot]
  have hpair : ¬ ['/', '/'] <:+: key := fun h => (hnames _ (Paths.nil_mem_segments h)).1 rfl
  constructor
  · have hne : key ≠ [] := by simp [hkey]
    have hslash : ¬ ['/'] <+: key := by simp [hkey]
    have hscoped : "tenants/".toList <+: key :=
      ⟨tenantId ++ "/products/".toList ++ productId ++ '/' :: rest, by simp [hkey]⟩
    have hbackslash : '\\' ∉ key := notMem_of_chars hchars (by decide)
    have hnul : '\x00' ∉ key := notMem_of_chars hchars (by decide)
    have hcolon : ':' ∉ key := notMem_of_chars hchars (by decide)
    have hsplit : key.splitOn '/' = _ := hsegments
    unfold assertTenantScopedKey
    rw [if_neg hne, if_neg (by simp only [hdots, hslash, hbackslash, hnul, hcolon, hpair]; simp),
      if_neg (not_not.mpr hscoped), hsplit]
    -- the tenant is a UUID, and something follows it
    rw [if_neg]
    rintro ⟨hfew | hother, -⟩
    · simp only [List.length_append, List.length_cons] at hfew
      omega
    · exact hother htenant
  · refine ⟨⟨rest, by simp [hkey]⟩, fun directory => ⟨Paths.segments rest, ?_, ?_⟩⟩
    · exact List.splitOn_ne_nil _ _
    · rw [Paths.walk_of_names directory hnames, hsegments, List.append_assoc]

/-- The name of an image, after the beginning of a UUID. -/
theorem tail_name {unique : Text} (hunique : uuidLike unique = true) (filename : Text) :
    '/' ∉ unique.take 8 ++ '_' :: sanitizeFilename toLowerCase filename ∧
      Tail (unique.take 8 ++ '_' :: sanitizeFilename toLowerCase filename) := by
  obtain ⟨base, ext, hname, hbase, hext⟩ := safeName_sanitizeFilename toLowerCase filename
  have hcount := count_dot hbase hext
  rw [← hname] at hcount
  have huniqueChars : ∀ c ∈ unique.take 8, nameChar c = true :=
    fun c hc => nameChar_of_uuidLike hunique c (List.mem_of_mem_take hc)
  have hchars : ∀ c ∈ unique.take 8 ++ '_' :: sanitizeFilename toLowerCase filename,
      (nameChar c || c = '.') = true := by
    obtain ⟨letters, rfl, hletters, -⟩ := extension_eq hext
    intro c hc
    rw [hname] at hc
    simp only [List.mem_append, List.mem_cons] at hc
    rcases hc with hc | rfl | hc | rfl | hc
    · simp [huniqueChars c hc]
    · decide
    · simp [hbase.chars c hc]
    · decide
    · simp [hletters c hc]
  have hslash : '/' ∉ unique.take 8 ++ '_' :: sanitizeFilename toLowerCase filename :=
    notMem_of_chars hchars (by decide)
  have hunderscore : '_' ∈ unique.take 8 ++ '_' :: sanitizeFilename toLowerCase filename := by simp
  refine ⟨hslash, ⟨fun c hc => ?_, ?_, ?_⟩⟩
  · rw [Bool.or_eq_true]
    exact .inl (hchars c hc)
  · have huniqueDot : '.' ∉ unique.take 8 := notMem_of_chars huniqueChars (by decide)
    rw [List.count_append, List.count_eq_zero.mpr huniqueDot,
      List.count_cons_of_ne (by decide), hcount]
  · intro s hs
    rw [Paths.segments_eq_singleton hslash, List.mem_singleton] at hs
    -- none of these has an underscore
    refine ⟨?_, ?_, ?_⟩ <;> intro heq <;> rw [← hs, heq] at hunderscore <;> simp at hunderscore

/-- A directory of the product goes before. -/
theorem Tail.below {directory rest : Text} (h : Tail rest)
    (hchars : ∀ c ∈ directory, nameChar c = true) (hne : directory ≠ []) :
    Tail (directory ++ '/' :: rest) where
  chars := by
    intro c hc
    rw [List.mem_append, List.mem_cons] at hc
    rcases hc with hc | rfl | hc
    · simp [hchars c hc]
    · decide
    · exact h.chars c hc
  dot := by
    have hdot : '.' ∉ directory := notMem_of_chars hchars (by decide)
    rw [List.count_append, List.count_eq_zero.mpr hdot, List.count_cons_of_ne (by decide), h.dot]
  segments := by
    have hdot : '.' ∉ directory := notMem_of_chars hchars (by decide)
    intro s hs
    rw [Paths.segments_append, List.mem_append,
      Paths.segments_eq_singleton (notMem_of_chars hchars (by decide)), List.mem_singleton] at hs
    rcases hs with rfl | hs
    · refine ⟨hne, ?_, ?_⟩ <;> rintro rfl <;> simp at hdot
    · exact h.segments s hs

/-- Every name becomes a safe one, which stays as it is; and the keys of images pass, and lead
below the directory of their product. -/
theorem keys_safe (hlower : ∀ ext ∈ allowedExtensions, toLowerCase ext = ext) :
    (∀ filename, SafeName (sanitizeFilename toLowerCase filename) ∧
      sanitizeFilename toLowerCase (sanitizeFilename toLowerCase filename) =
        sanitizeFilename toLowerCase filename) ∧
    ∀ unique tenantId productId variantId filename, uuidLike unique = true →
      uuidLike tenantId = true → uuidLike productId = true → uuidLike variantId = true →
      (∀ key ∈ [generateProductImageKey toLowerCase unique tenantId productId filename,
          generateVariantImageKey toLowerCase unique tenantId productId variantId filename],
        assertTenantScopedKey key = .ok () ∧ Below tenantId productId key) := by
  constructor
  · intro filename
    have hsafe := safeName_sanitizeFilename toLowerCase filename
    exact ⟨hsafe, sanitizeFilename_eq_self hlower hsafe⟩
  · intro unique tenantId productId variantId filename hunique htenant hproduct hvariant key hkey
    have hname : Tail (unique.take 8 ++ '_' :: sanitizeFilename toLowerCase filename) :=
      (tail_name hunique filename).2
    have hvariantName : Tail ("variants".toList ++ '/' :: (variantId ++ '/' ::
        (unique.take 8 ++ '_' :: sanitizeFilename toLowerCase filename))) := by
      apply Tail.below _ (by decide) (by decide)
      exact hname.below (nameChar_of_uuidLike hvariant) (ne_nil_of_uuidLike hvariant)
    rw [List.mem_cons, List.mem_singleton] at hkey
    rcases hkey with hkey | hkey
    · unfold generateProductImageKey at hkey
      exact key_safe htenant hproduct hname hkey
    · unfold generateVariantImageKey at hkey
      apply key_safe htenant hproduct hvariantName
      have hvariants : "/variants/".toList = '/' :: ("variants".toList ++ ['/']) := by decide
      rw [hkey, hvariants]
      simp only [List.append_assoc, List.cons_append, List.nil_append]

/-- Lower case that changes ASCII letters. -/
theorem keys_safe_ascii :
    assertTenantScopedKey (generateProductImageKey (List.map Char.toLower)
      "7d444840-9dc0-11d1-b245-5ffdce74fad2".toList "7d444840-9dc0-11d1-b245-5ffdce74fad3".toList
      "7d444840-9dc0-11d1-b245-5ffdce74fad4".toList "../a  b.PNG".toList) = .ok () :=
  ((keys_safe (by decide +kernel)).2 _ _ _ "7d444840-9dc0-11d1-b245-5ffdce74fad5".toList _
    (by decide +kernel) (by decide +kernel) (by decide +kernel) (by decide +kernel) _
    List.mem_cons_self).1

end PulseOps.Storage
