import DeviceUpdate.Proofs.Assembly
import DeviceUpdate.Proofs.Text.Number
import DeviceUpdate.Proofs.Text.Rows
import DeviceUpdate.Proofs.Text.Utf8

/-!
# The grammar of manifests

What the rows of a text say is stated without the reader: a row is silent, sets a key, or is no
manifest row at all, and the last row for a key counts. A text is read as a manifest exactly if its
rows define that manifest; every other text is refused as an invalid manifest.
-/

namespace DeviceUpdate

lemma ok_bind_iff {ε α β : Type} {x : Except ε α} {f : α → Except ε β} {b : β} :
    x >>= f = .ok b ↔ ∃ a, x = .ok a ∧ f a = .ok b := by
  constructor
  · exact ok_of_bind
  · rintro ⟨a, rfl, h⟩
    exact h

lemma map_eq_ok_iff {ε α β : Type} {x : Except ε α} {f : α → β} {b : β} :
    x.map f = .ok b ↔ ∃ a, x = .ok a ∧ f a = b := by
  cases x <;> simp [Except.map]

namespace Manifest

open Text (Trims Rows Signed Unsigned)

/-! ### What a row says -/

/-- The row is blank or a comment. -/
def Silent (row : List Char) : Prop := ∃ line, Trims row line ∧ (line = [] ∨ line.head? = some '#')

/-- One pair of double quotes around the text is taken off, if there is one. -/
def Unquotes (quoted value : List Char) : Prop :=
  quoted = '"' :: (value ++ ['"']) ∨ (quoted = value ∧ ∀ inner, value ≠ '"' :: (inner ++ ['"']))

/-- The row sets the key: what is in front of the first equals sign is the key, and what is behind
it is the value, both without blanks around them. -/
structure Sets (row key value : List Char) : Prop where
  loud : ¬ Silent row
  parts : ∃ line front back quoted, Trims row line ∧ line = front ++ '=' :: back ∧ '=' ∉ front ∧
    Trims front key ∧ Trims back quoted ∧ Unquotes quoted value

/-- The last of the rows that set the key gives it this value. -/
def Gives (rows : List (List Char)) (key value : List Char) : Prop :=
  ∃ earlier row later, rows = earlier ++ row :: later ∧ Sets row key value ∧
    ∀ r ∈ later, ∀ v, ¬ Sets r key v

/-- No slash, no backslash, and no two dots in a row. -/
structure PlainName (name : List Char) : Prop where
  slash : '/' ∉ name
  backslash : '\\' ∉ name
  dots : ¬ ['.', '.'] <:+: name

/-- The rows define the manifest. -/
structure Defines (fs : FileSystem) (rows : List (List Char)) (m : Manifest) : Prop where
  understood : ∀ row ∈ rows, ¬ Silent row → '=' ∈ row
  /-- up to 2^63 - 1 -/
  size : ∃ v, Gives rows "size".toList v ∧ Signed v m.totalSize ∧
    1 ≤ m.totalSize ∧ m.totalSize ≤ 9223372036854775807
  /-- up to 2^32 - 1 -/
  fragments : ∃ v, Gives rows "fragments".toList v ∧ Signed v m.fragmentCount ∧
    1 ≤ m.fragmentCount ∧ m.fragmentCount ≤ 4294967295
  name : Gives rows "name".toList m.name.toList ∧ m.name ≠ "" ∧ PlainName m.name.toList
  checksum : ∃ v, Gives rows "checksum".toList v ∧ Unsigned v m.checksum.toNat
  source : Gives rows "src_dir".toList m.sourceDirectory.toList ∧ m.sourceDirectory ≠ "" ∧
    fs.isDirectory m.sourceDirectory

/-! ### Reading a row -/

lemma unquote_eq_iff {quoted value : List Char} :
    unquote quoted = value ↔ Unquotes quoted value := by
  have hlast (rest : List Char) : rest.getLast? = some '"' ↔ ∃ inner, rest = inner ++ ['"'] :=
    List.getLast?_eq_some_iff
  unfold unquote Unquotes
  split
  · rename_i rest
    split
    · rename_i closed
      obtain ⟨inner, rfl⟩ := (hlast rest).mp closed
      rw [List.dropLast_concat]
      constructor
      · rintro rfl
        exact .inl rfl
      · rintro (h | ⟨rfl, none⟩)
        · exact List.append_cancel_right (List.cons.inj h).2
        · exact absurd rfl (none inner)
    · rename_i open_
      have hnone (inner : List Char) : '"' :: rest ≠ '"' :: (inner ++ ['"']) := fun h =>
        open_ ((hlast rest).mpr ⟨inner, (List.cons.inj h).2⟩)
      constructor
      · rintro rfl
        exact .inr ⟨rfl, hnone⟩
      · rintro (h | ⟨rfl, -⟩)
        · exact absurd h (hnone value)
        · rfl
  · rename_i plain
    constructor
    · rintro rfl
      exact .inr ⟨rfl, fun inner => plain _⟩
    · rintro (h | ⟨rfl, -⟩)
      · exact absurd h (plain _)
      · rfl

lemma silent_iff {row : List Char} :
    Silent row ↔ Text.trim row = [] ∨ (Text.trim row).head? = some '#' := by
  constructor
  · rintro ⟨line, htrims, h⟩
    rwa [htrims.trim_eq]
  · exact fun h => ⟨_, Text.trims_trim row, h⟩

lemma sets_iff {row key value : List Char} :
    Sets row key value ↔ ¬ Silent row ∧ ∃ front back, Text.cut? '=' (Text.trim row) =
      some (front, back) ∧ Text.trim front = key ∧ unquote (Text.trim back) = value := by
  constructor
  · rintro ⟨loud, line, front, back, quoted, hline, hparts, hfirst, hkey, hquoted, hvalue⟩
    refine ⟨loud, front, back, ?_, hkey.trim_eq, ?_⟩
    · rw [hline.trim_eq]
      exact Text.cut?_eq_some_iff.mpr ⟨hparts, hfirst⟩
    · rw [hquoted.trim_eq, unquote_eq_iff]
      exact hvalue
  · rintro ⟨loud, front, back, hcut, rfl, rfl⟩
    obtain ⟨hparts, hfirst⟩ := Text.cut?_eq_some_iff.mp hcut
    exact ⟨loud, _, front, back, _, Text.trims_trim row, hparts, hfirst, Text.trims_trim front,
      Text.trims_trim back, unquote_eq_iff.mp rfl⟩

/-- No equals sign is lost by trimming. -/
lemma mem_trim_iff {row : List Char} : '=' ∈ Text.trim row ↔ '=' ∈ row := by
  obtain ⟨front, back, hrow, hfront, hback⟩ := (Text.trims_trim row).parts
  have hnot {cs : List Char} (blank : ∀ c ∈ cs, Text.isBlank c) : '=' ∉ cs := fun h =>
    absurd (blank '=' h) (by decide)
  conv_rhs => rw [hrow]
  simp [hnot hfront, hnot hback]

/-- The property that a row sets. -/
def property? (row : List Char) : Option Property :=
  match Line.ofText row with
  | .property p => some p
  | _ => none

lemma ofText_of_silent {row : List Char} (h : Silent row) : Line.ofText row = .silent := by
  simp [Line.ofText, silent_iff.mp h]

lemma ofText_of_loud {row : List Char} (h : ¬ Silent row) :
    Line.ofText row = match Text.cut? '=' (Text.trim row) with
      | some (key, value) => .property (Text.trim key, unquote (Text.trim value))
      | none => .malformed := by
  have hsilent : ((Text.trim row).isEmpty || (Text.trim row).head? == some '#') = false := by
    rw [silent_iff] at h
    simpa using h
  rw [Line.ofText, hsilent]
  rfl

lemma property?_eq_some_iff {row key value : List Char} :
    property? row = some (key, value) ↔ Sets row key value := by
  rw [sets_iff, property?]
  by_cases silent : Silent row
  · simp [ofText_of_silent silent, silent]
  · rw [ofText_of_loud silent]
    cases Text.cut? '=' (Text.trim row) with
    | none => simp
    | some parts => simp [silent, Prod.ext_iff]

lemma ofText_eq_malformed_iff {row : List Char} :
    Line.ofText row = .malformed ↔ ¬ Silent row ∧ '=' ∉ row := by
  by_cases silent : Silent row
  · simp [ofText_of_silent silent, silent]
  · rw [ofText_of_loud silent, ← mem_trim_iff, ← Text.cut?_eq_none_iff]
    cases Text.cut? '=' (Text.trim row) with
    | none => simp [silent]
    | some parts => simp

/-! ### Reading the rows of a text -/

lemma propertiesFrom_eq_ok_iff {number : Nat} {rows : List (List Char)} {ps : List Property} :
    propertiesFrom number rows = .ok ps ↔
      (∀ row ∈ rows, Line.ofText row ≠ .malformed) ∧ rows.filterMap property? = ps := by
  induction rows generalizing number ps with
  | nil => simp [propertiesFrom]
  | cons row rows ih =>
    rw [propertiesFrom, List.forall_mem_cons, List.filterMap_cons, property?]
    cases Line.ofText row with
    | silent => simpa using ih
    | malformed => simp
    | property p => simp [map_eq_ok_iff, ih]

lemma properties_eq_ok_iff {text : List Char} {ps : List Property} :
    properties text = .ok ps ↔ (∀ row ∈ Text.rows text, ¬ Silent row → '=' ∈ row) ∧
      (Text.rows text).filterMap property? = ps := by
  have hreturn (row : List Char) : Line.ofText (Text.dropReturn row) = Line.ofText row := by
    simp only [Line.ofText, Text.trim_dropReturn]
  have hproperty : property? ∘ Text.dropReturn = property? := by
    funext row
    simp only [Function.comp_apply, property?, hreturn]
  have hempty : Line.ofText [] = .silent ∧ property? [] = none := ⟨rfl, rfl⟩
  have hfine (row : List Char) : Line.ofText row ≠ .malformed ↔ (¬ Silent row → '=' ∈ row) := by
    rw [Ne, ofText_eq_malformed_iff]
    tauto
  -- lines and rows differ by carriage returns and an empty row at the end, and both say nothing
  obtain ⟨front, last, hrows, hlines⟩ := Text.lines_eq text
  simp only [properties, propertiesFrom_eq_ok_iff, hrows, hlines, ← hfine, List.filterMap_append,
    List.filterMap_map, hproperty, List.forall_mem_append, List.forall_mem_map, hreturn]
  cases last with
  | nil => simp [hempty]
  | cons c last => simp

/-- Searching from the end finds the last one. -/
lemma find?_reverse_eq_some_iff {α : Type} {p : α → Bool} {l : List α} {a : α} :
    l.reverse.find? p = some a ↔
      ∃ earlier later, l = earlier ++ a :: later ∧ p a ∧ ∀ b ∈ later, p b = false := by
  rw [List.find?_eq_some_iff_append]
  constructor
  · rintro ⟨found, after, before, hsplit, hafter⟩
    refine ⟨before.reverse, after.reverse, ?_, found, by simpa using hafter⟩
    rw [← l.reverse_reverse, hsplit]
    simp
  · rintro ⟨earlier, later, rfl, found, hlater⟩
    exact ⟨found, later.reverse, earlier.reverse, by simp, by simpa using hlater⟩

lemma value?_eq_some_iff {rows : List (List Char)} {key : String} {value : List Char} :
    value? (rows.filterMap property?) key = some value ↔ Gives rows key.toList value := by
  have hsets (row : List Char) :
      (property? row).any (fun p => p.1 == key.toList) ↔ ∃ v, Sets row key.toList v := by
    simp only [← property?_eq_some_iff]
    cases property? row <;> simp [Prod.ext_iff]
  simp only [value?, ← List.filterMap_reverse, List.find?_filterMap, Option.map_eq_some_iff,
    Option.bind_eq_some_iff, find?_reverse_eq_some_iff, ← Bool.not_eq_true, hsets, not_exists]
  constructor
  · rintro ⟨⟨k, v⟩, ⟨row, ⟨earlier, later, hrows, ⟨w, hrow⟩, hlater⟩, hproperty⟩, rfl⟩
    rw [property?_eq_some_iff.mpr hrow] at hproperty
    obtain ⟨rfl, rfl⟩ := by simpa using hproperty
    exact ⟨earlier, row, later, hrows, hrow, hlater⟩
  · rintro ⟨earlier, row, later, hrows, hrow, hlater⟩
    exact ⟨_, ⟨row, ⟨earlier, later, hrows, ⟨value, hrow⟩, hlater⟩,
      property?_eq_some_iff.mpr hrow⟩, rfl⟩

/-! ### Reading the settings -/

section

variable {rows : List (List Char)} {key : String}

lemma required_eq_ok_iff {value : List Char} :
    required (rows.filterMap property?) key = .ok value ↔ Gives rows key.toList value := by
  rw [← value?_eq_some_iff, required]
  cases value? (rows.filterMap property?) key <;> simp

lemma nonEmpty_eq_ok_iff {value : List Char} :
    nonEmpty (rows.filterMap property?) key = .ok value ↔
      Gives rows key.toList value ∧ value ≠ [] := by
  rw [← required_eq_ok_iff]
  unfold nonEmpty
  split
  · rename_i hempty
    simp only [hempty, reduceCtorEq, Except.ok.injEq, false_iff, not_and, not_not]
    exact Eq.symm
  · rename_i hother
    constructor
    · intro h
      refine ⟨h, ?_⟩
      rintro rfl
      exact hother h
    · exact And.left

lemma positive_eq_ok_iff {n : Nat} :
    positive (rows.filterMap property?) key = .ok n ↔
      ∃ v, Gives rows key.toList v ∧ Signed v n ∧ 1 ≤ n ∧ n ≤ 9223372036854775807 := by
  have hread (v : List Char) (z : Int) :
      Text.readNumber (-9223372036854775808) 9223372036854775807 v = .ok z ↔ _ :=
    Text.readNumber_eq_ok_iff (by decide) (by decide)
  unfold positive
  simp only [ok_bind_iff, required_eq_ok_iff]
  refine exists_congr fun v => and_congr_right fun _ => ?_
  split
  · rename_i e herror
    simp only [reduceCtorEq, false_iff]
    rintro ⟨number, low, high⟩
    have h := (hread v n).mpr ⟨number, by omega, by omega, by simp⟩
    simp [herror] at h
  · rename_i z hz
    obtain ⟨number, low, high, -⟩ := (hread v z).mp hz
    constructor
    · intro h
      split at h
      · obtain rfl : z.toNat = n := Except.ok.inj h
        rw [Int.toNat_of_nonneg (by omega)]
        exact ⟨number, by omega, by omega⟩
      · cases h
    · rintro ⟨number', low', high'⟩
      have h := (hread v n).mpr ⟨number', by omega, by omega, by simp⟩
      obtain rfl : z = n := by simpa [hz] using h
      rw [if_pos (by omega), Int.toNat_natCast]

lemma fragmentsOf_eq_ok_iff {n : Nat} :
    fragmentsOf (rows.filterMap property?) = .ok n ↔
      ∃ v, Gives rows "fragments".toList v ∧ Signed v n ∧ 1 ≤ n ∧ n ≤ 4294967295 := by
  unfold fragmentsOf
  simp only [ok_bind_iff, positive_eq_ok_iff]
  constructor
  · rintro ⟨k, ⟨v, hv, number, low, -⟩, h⟩
    split at h
    · obtain rfl : k = n := Except.ok.inj h
      exact ⟨v, hv, number, low, by omega⟩
    · cases h
  · rintro ⟨v, hv, number, low, high⟩
    exact ⟨n, ⟨v, hv, number, low, by omega⟩, by rw [if_pos (by omega)]⟩

lemma isPlain_iff {name : List Char} : Path.isPlain name ↔ PlainName name := by
  have hdots : Text.contains ['.', '.'] name = false ↔ ¬ ['.', '.'] <:+: name := by
    rw [← Text.contains_iff, Bool.not_eq_true]
  simp only [Path.isPlain, Bool.and_eq_true, Bool.not_eq_true', List.contains_eq_mem,
    decide_eq_false_iff_not, hdots]
  constructor
  · rintro ⟨⟨slash, backslash⟩, dots⟩
    exact ⟨slash, backslash, dots⟩
  · exact fun h => ⟨⟨h.slash, h.backslash⟩, h.dots⟩

/-- A text is its characters. -/
lemma ofList_eq_iff {cs : List Char} {s : String} : String.ofList cs = s ↔ s.toList = cs := by
  constructor
  · rintro rfl
    exact String.toList_ofList
  · rintro rfl
    exact String.ofList_toList

lemma packageName_eq_ok_iff {name : String} :
    packageName (rows.filterMap property?) = .ok name ↔
      Gives rows "name".toList name.toList ∧ name ≠ "" ∧ PlainName name.toList := by
  unfold packageName
  simp only [ok_bind_iff, nonEmpty_eq_ok_iff]
  constructor
  · rintro ⟨v, ⟨hv, nonempty⟩, h⟩
    split at h
    · rename_i plain
      obtain rfl := ofList_eq_iff.mp (Except.ok.inj h)
      exact ⟨hv, by simpa using nonempty, isPlain_iff.mp plain⟩
    · cases h
  · rintro ⟨hname, nonempty, plain⟩
    exact ⟨name.toList, ⟨hname, by simpa using nonempty⟩,
      by rw [if_pos (isPlain_iff.mpr plain), String.ofList_toList]⟩

lemma checksumOf_eq_ok_iff {checksum : UInt32} :
    checksumOf (rows.filterMap property?) = .ok checksum ↔
      ∃ v, Gives rows "checksum".toList v ∧ Unsigned v checksum.toNat := by
  have bound := checksum.toNat_lt
  unfold checksumOf
  simp only [ok_bind_iff, nonEmpty_eq_ok_iff]
  constructor
  · rintro ⟨v, ⟨hv, -⟩, h⟩
    split at h
    · rename_i n hn
      obtain ⟨number, high⟩ := Text.readNatural_eq_ok_iff.mp hn
      obtain rfl : n.toUInt32 = checksum := Except.ok.inj h
      have hn : n.toUInt32.toNat = n := by
        rw [UInt32.toNat_ofNat', Nat.mod_eq_of_lt (by omega)]
      exact ⟨v, hv, by rwa [hn]⟩
    · cases h
  · rintro ⟨v, hv, number⟩
    have hread := Text.readNatural_eq_ok_iff.mpr ⟨number, (by omega : checksum.toNat ≤ 4294967295)⟩
    refine ⟨v, ⟨hv, number.nonempty⟩, ?_⟩
    rw [hread]
    exact congrArg Except.ok UInt32.ofNat_toNat

lemma sourceDirectoryOf_eq_ok_iff {fs : FileSystem} {directory : String} :
    sourceDirectoryOf fs (rows.filterMap property?) = .ok directory ↔
      Gives rows "src_dir".toList directory.toList ∧ directory ≠ "" ∧
        fs.isDirectory directory := by
  unfold sourceDirectoryOf
  simp only [ok_bind_iff, nonEmpty_eq_ok_iff]
  constructor
  · rintro ⟨v, ⟨hv, nonempty⟩, h⟩
    split at h
    · rename_i present
      obtain rfl := ofList_eq_iff.mp (Except.ok.inj h)
      exact ⟨hv, by simpa using nonempty, by simpa using present⟩
    · cases h
  · rintro ⟨hdirectory, nonempty, present⟩
    refine ⟨directory.toList, ⟨hdirectory, by simpa using nonempty⟩, ?_⟩
    rw [String.ofList_toList, if_pos present]

end

/-- A text is read as a manifest exactly if its rows define it. -/
lemma ofText_eq_ok_iff {fs : FileSystem} {text : String} {m : Manifest} :
    ofText fs text = .ok m ↔ Defines fs (Text.rows text.toList) m := by
  unfold ofText ofProperties
  simp only [ok_bind_iff, properties_eq_ok_iff]
  constructor
  · rintro ⟨ps, ⟨understood, rfl⟩, size, hsize, fragments, hfragments, name, hname, checksum,
      hchecksum, directory, hdirectory, h⟩
    obtain rfl : _ = m := Except.ok.inj h
    exact ⟨understood, positive_eq_ok_iff.mp hsize, fragmentsOf_eq_ok_iff.mp hfragments,
      packageName_eq_ok_iff.mp hname, checksumOf_eq_ok_iff.mp hchecksum,
      sourceDirectoryOf_eq_ok_iff.mp hdirectory⟩
  · rintro ⟨understood, size, fragments, name, checksum, source⟩
    exact ⟨_, ⟨understood, rfl⟩, _, positive_eq_ok_iff.mpr size, _,
      fragmentsOf_eq_ok_iff.mpr fragments, _, packageName_eq_ok_iff.mpr name, _,
      checksumOf_eq_ok_iff.mpr checksum, _, sourceDirectoryOf_eq_ok_iff.mpr source, rfl⟩

/-! ### Refusals -/

/-- If there is an error, then that of an invalid manifest. -/
def Refuses {α : Type} (x : Except UpdateError α) : Prop :=
  ∀ e, x = .error e → ∃ reason, e = .invalidManifest reason

namespace Refuses

variable {α β : Type} {x : Except UpdateError α}

lemma ok (a : α) : Refuses (.ok a) := by rintro e ⟨⟩

lemma invalid (reason : String) : Refuses (.error (.invalidManifest reason) : Except _ α) := by
  rintro e ⟨⟩
  exact ⟨reason, rfl⟩

lemma bind {f : α → Except UpdateError β} (h : Refuses x) (rest : ∀ a, Refuses (f a)) :
    Refuses (x >>= f) := by
  cases x with
  | error e =>
    rintro e' ⟨⟩
    exact h e rfl
  | ok a => exact rest a

lemma map {f : α → β} (h : Refuses x) : Refuses (x.map f) := by
  cases x with
  | error e =>
    rintro e' ⟨⟩
    exact h e rfl
  | ok a => exact ok (f a)

end Refuses

lemma propertiesFrom_refuses (number : Nat) (rows : List (List Char)) :
    Refuses (propertiesFrom number rows) := by
  induction rows generalizing number with
  | nil => exact .ok []
  | cons row rows ih =>
    rw [propertiesFrom]
    split
    · exact ih (number + 1)
    · exact (ih (number + 1)).map
    · exact .invalid _

section

variable (ps : List Property) (key : String)

lemma required_refuses : Refuses (required ps key) := by
  unfold required
  split
  · exact .ok _
  · exact .invalid _

lemma nonEmpty_refuses : Refuses (nonEmpty ps key) := by
  unfold nonEmpty
  split
  · exact .invalid _
  · exact required_refuses ps key

lemma positive_refuses : Refuses (positive ps key) := by
  refine (required_refuses ps key).bind fun v => ?_
  split
  · exact .invalid _
  · split
    · exact .ok _
    · exact .invalid _

lemma ofProperties_refuses (fs : FileSystem) : Refuses (ofProperties fs ps) := by
  have hfragments : Refuses (fragmentsOf ps) := by
    refine (positive_refuses ps _).bind fun n => ?_
    split
    · exact .ok _
    · exact .invalid _
  have hname : Refuses (packageName ps) := by
    refine (nonEmpty_refuses ps _).bind fun name => ?_
    split
    · exact .ok _
    · exact .invalid _
  have hchecksum : Refuses (checksumOf ps) := by
    refine (nonEmpty_refuses ps _).bind fun v => ?_
    split
    · exact .ok _
    · exact .invalid _
  have hdirectory : Refuses (sourceDirectoryOf fs ps) := by
    refine (nonEmpty_refuses ps _).bind fun v => ?_
    dsimp only
    split
    · exact .ok _
    · exact .invalid _
  exact (positive_refuses ps _).bind fun _ => hfragments.bind fun _ => hname.bind fun _ =>
    hchecksum.bind fun _ => hdirectory.bind fun _ => .ok _

end

lemma ofText_refuses (fs : FileSystem) (text : String) : Refuses (ofText fs text) :=
  (propertiesFrom_refuses 1 _).bind fun ps => ofProperties_refuses ps fs

/-! ### Main statement -/

/-- A text is read as a manifest exactly if its rows define that manifest, and otherwise it is an
invalid manifest. A file that holds a text in UTF-8 is read as the text, and every other file is
reported as such. -/
theorem manifest_grammar (fs : FileSystem) (text : String) :
    (∀ m, ofText fs text = .ok m ↔ ∃ rows, Rows text.toList rows ∧ Defines fs rows m) ∧
    ((∀ m rows, Rows text.toList rows → ¬ Defines fs rows m) →
      ∃ reason, ofText fs text = .error (.invalidManifest reason)) ∧
    (∀ path, fs.read path = .ok (Text.encodeUtf8 text) → load fs path = ofText fs text) ∧
    ∀ path, (∀ content, fs.read path ≠ .ok (Text.encodeUtf8 content)) →
      ∃ cause, load fs path = .error (.file path cause) := by
  have hrows (m : Manifest) : (∃ rows, Rows text.toList rows ∧ Defines fs rows m) ↔
      Defines fs (Text.rows text.toList) m := by
    constructor
    · rintro ⟨rows, hrows, h⟩
      rwa [hrows.rows_eq]
    · exact fun h => ⟨_, Text.rows_rows _, h⟩
  refine ⟨fun m => ofText_eq_ok_iff.trans (hrows m).symm, fun none => ?_, fun path held => ?_,
    fun path none => ?_⟩
  · cases hread : ofText fs text with
    | ok m => exact absurd (ofText_eq_ok_iff.mp hread) (none m _ (Text.rows_rows _))
    | error e =>
      obtain ⟨reason, rfl⟩ := ofText_refuses fs text e hread
      exact ⟨reason, rfl⟩
  · rw [load, FileSystem.readText_eq_ok_iff.mpr held]
  · unfold load
    split
    · rename_i content hread
      exact absurd (FileSystem.readText_eq_ok_iff.mp hread) (none content)
    · exact ⟨_, rfl⟩

/-- Rows between comments and blank ones: a size that a later row replaces, a sign, a number in
quotes, a quote inside the quotes, and carriage returns. -/
def tangledText : String :=
  "# size = 1\nsize=none\r\n \r\n\tsize = +0042\nfragments = \"3\"\nname=\"\"img\"\r\n" ++
    "checksum=+4294967295\nkey = a = b\nsrc_dir = /\nchecksum = 7"

def tangled : Manifest := ⟨42, 3, "\"img", 7, "/"⟩

/-- The tangled text is held by the file `m`, and no file is named `n`. -/
def tangledFiles : FileSystem :=
  ⟨#[.directory 0 [("m", 1)], .file (Text.encodeUtf8 tangledText) false], 0, 0, 0, none⟩

/-- The tangled text defines its manifest, from a file too; without its third row it is refused, and
a file that is not there is reported. -/
theorem tangled_text_is_read :
    (∃ rows, Rows tangledText.toList rows ∧ Defines tangledFiles rows tangled) ∧
    load tangledFiles "m" = .ok tangled ∧
    (∃ reason, ofText tangledFiles "size=none" = .error (.invalidManifest reason)) ∧
    ∃ cause, load tangledFiles "n" = .error (.file "n" cause) := by
  have hread : ofText tangledFiles tangledText = .ok tangled := by decide +kernel
  have hrefused (m : Manifest) : ofText tangledFiles "size=none" ≠ .ok m := by
    intro h
    have hnone : (ofText tangledFiles "size=none").toOption = none := by decide +kernel
    simp [h, Except.toOption] at hnone
  have hheld : tangledFiles.read "m" = .ok (Text.encodeUtf8 tangledText) := rfl
  have hmissing (content : String) :
      tangledFiles.read "n" ≠ .ok (Text.encodeUtf8 content) := by
    have hnone : tangledFiles.read "n" = .error .notFound := rfl
    simp [hnone]
  obtain ⟨reads, -, loads, unreadable⟩ := manifest_grammar tangledFiles tangledText
  obtain ⟨accepts, refuses, -, -⟩ := manifest_grammar tangledFiles "size=none"
  refine ⟨(reads tangled).mp hread, (loads "m" hheld).trans hread, refuses ?_,
    unreadable "n" hmissing⟩
  exact fun m rows hrows h => hrefused m ((accepts m).mpr ⟨rows, hrows, h⟩)

end Manifest

end DeviceUpdate
