import DeviceUpdate.FileSystem.Listing
import DeviceUpdate.Proofs.Manifest.Grammar

/-!
# Written manifests

A manifest is written as one row for each of its five settings, the two texts among them in quotes
and nothing escaped. Reading gives the manifest back, in whatever order the rows come, and however
many blanks, silent rows, rows for other keys and rows that a later one replaces stand in between.
-/

namespace DeviceUpdate.Manifest

open Text (Trims Digits Signed isBlank isBlank_of_isDigit digits_toString)

/-! ### What is written -/

def quote (value : List Char) : List Char := '"' :: (value ++ ['"'])

def keys : List (List Char) := ["size", "fragments", "name", "checksum", "src_dir"].map (·.toList)

/-- The keys of the manifest with their values as they are written. -/
def settings (m : Manifest) : List Property :=
  keys.zip [(toString m.totalSize).toList, (toString m.fragmentCount).toList, quote m.name.toList,
    (toString m.checksum.toNat).toList, quote m.sourceDirectory.toList]

def rowOf (p : Property) : List Char := p.1 ++ [' ', '=', ' '] ++ p.2

def toText (m : Manifest) : String := String.ofList (m.settings.flatMap fun p => rowOf p ++ ['\n'])

/-- What a manifest must be like so that it can be written and read. -/
structure Writable (fs : FileSystem) (m : Manifest) : Prop where
  /-- up to 2^63 - 1 -/
  size : 1 ≤ m.totalSize ∧ m.totalSize ≤ 9223372036854775807
  /-- up to 2^32 - 1 -/
  fragments : 1 ≤ m.fragmentCount ∧ m.fragmentCount ≤ 4294967295
  name : m.name ≠ "" ∧ PlainName m.name.toList ∧ '\n' ∉ m.name.toList
  source : m.sourceDirectory ≠ "" ∧ '\n' ∉ m.sourceDirectory.toList ∧
    fs.isDirectory m.sourceDirectory

/-- The text with blanks around it. -/
def Padded (raw text : List Char) : Prop :=
  ∃ front back, raw = front ++ text ++ back ∧ (∀ c ∈ front, isBlank c) ∧ ∀ c ∈ back, isBlank c

/-- The row is this setting, with blanks around the key and the value. -/
def Writes (row : List Char) (p : Property) : Prop :=
  ∃ left right, row = left ++ '=' :: right ∧ Padded left p.1 ∧ Padded right p.2

/-- One more row, and the settings that are to come before it and behind it. -/
inductive Adds : List Property → List Char → List Property → Prop
  | setting {p : Property} {pending : List Property} {row : List Char} (writes : Writes row p) :
      Adds (p :: pending) row pending
  | silent {pending : List Property} {row : List Char} (silent : Silent row) :
      Adds pending row pending
  /-- a row for a key that manifests do not have -/
  | other {pending : List Property} {row key value : List Char} (sets : Sets row key value)
      (unknown : key ∉ keys) : Adds pending row pending
  /-- a row for a setting that comes later -/
  | earlier {pending : List Property} {row value : List Char} {p : Property}
      (sets : Sets row p.1 value) (later : p ∈ pending) : Adds pending row pending

/-- The rows are the settings in this order, with other rows between them. -/
inductive Arranges : List Property → List (List Char) → Prop
  | nil : Arranges [] []
  | cons {before after : List Property} {row : List Char} {rows : List (List Char)}
      (adds : Adds before row after) (rest : Arranges after rows) : Arranges before (row :: rows)

/-- The text holds these rows, each with a line feed at its end or a carriage return and a line
feed; the last one may be without. -/
inductive Lined : List (List Char) → List Char → Prop
  | nil : Lined [] []
  | last {row : List Char} (single : '\n' ∉ row) : Lined [row] row
  | feed {row text : List Char} {rows : List (List Char)} (single : '\n' ∉ row)
      (rest : Lined rows text) : Lined (row :: rows) (row ++ '\n' :: text)
  | returnFeed {row text : List Char} {rows : List (List Char)} (single : '\n' ∉ row)
      (rest : Lined rows text) : Lined (row :: rows) (row ++ '\r' :: '\n' :: text)

/-! ### One row -/

/-- There is something between the blanks, and nothing of it is lost by trimming. -/
structure Tight (cs : List Char) : Prop where
  nonempty : cs ≠ []
  first : ∀ c, cs.head? = some c → isBlank c = false
  last : ∀ c, cs.getLast? = some c → isBlank c = false

lemma Tight.trims {cs : List Char} (h : Tight cs) : Trims cs cs :=
  ⟨⟨[], [], by simp, by simp, by simp⟩, h.first, h.last⟩

lemma writes_of_blanks {row : List Char} {p : Property} (front gap gap' back : List Char)
    (blank : (front ++ gap ++ gap' ++ back).all isBlank)
    (written : row = front ++ p.1 ++ gap ++ '=' :: (gap' ++ p.2 ++ back)) : Writes row p := by
  simp only [List.all_append, Bool.and_eq_true, List.all_eq_true] at blank
  obtain ⟨⟨⟨hfront, hgap⟩, hgap'⟩, hback⟩ := blank
  exact ⟨_, _, written, ⟨front, gap, rfl, hfront, hgap⟩, gap', back, rfl, hgap', hback⟩

/-- A row can say what the setting is. -/
structure Legible (p : Property) : Prop where
  key : Tight p.1
  free : '=' ∉ p.1
  loud : p.1.head? ≠ some '#'
  value : Tight p.2

lemma Writes.sets {row : List Char} {p : Property} (h : Writes row p) (legible : Legible p) :
    Sets row p.1 (unquote p.2) := by
  obtain ⟨_, _, rfl, ⟨front, gap, rfl, hfront, hgap⟩, ⟨gap', back, rfl, hgap', hback⟩⟩ := h
  obtain ⟨key, free, loud, value⟩ := legible
  have hhead : (p.1 ++ gap ++ '=' :: (gap' ++ p.2)).head? = p.1.head? := by
    simp [List.head?_append_of_ne_nil _ key.nonempty]
  have hline : Trims (front ++ p.1 ++ gap ++ '=' :: (gap' ++ p.2 ++ back))
      (p.1 ++ gap ++ '=' :: (gap' ++ p.2)) := by
    refine ⟨⟨front, back, by simp, hfront, hback⟩, fun c hc => key.first c (hhead ▸ hc),
      fun c hc => value.last c ?_⟩
    rwa [List.getLast?_append_of_ne_nil _ (by simp), ← List.cons_append,
      List.getLast?_append_of_ne_nil _ value.nonempty] at hc
  have hequals : '=' ∉ p.1 ++ gap := by
    intro h
    rcases List.mem_append.mp h with h | h
    · exact free h
    · exact absurd (hgap '=' h) (by decide)
  refine ⟨?_, _, p.1 ++ gap, gap' ++ p.2, p.2, hline, rfl, hequals, key.trims.append_blank hgap,
    value.trims.blank_append hgap', unquote_eq_iff.mp rfl⟩
  rw [silent_iff, hline.trim_eq, hhead]
  simp [loud]

lemma Sets.inj {row key key' value value' : List Char} (h : Sets row key value)
    (h' : Sets row key' value') : key = key' ∧ value = value' := by
  have heq := (property?_eq_some_iff.mpr h).symm.trans (property?_eq_some_iff.mpr h')
  simpa using heq

lemma Sets.mem {row key value : List Char} (h : Sets row key value) : '=' ∈ row := by
  obtain ⟨line, front, back, quoted, hline, rfl, -⟩ := h.parts
  rw [← mem_trim_iff, hline.trim_eq]
  simp

/-- A carriage return at the end of a row changes nothing. -/
lemma trim_return (row : List Char) : Text.trim (row ++ ['\r']) = Text.trim row :=
  ((Text.trims_trim row).append_blank (by simp [isBlank])).trim_eq

lemma Adds.return {before after : List Property} {row : List Char} (h : Adds before row after) :
    Adds before (row ++ ['\r']) after := by
  have hsets {key value : List Char} (sets : Sets row key value) :
      Sets (row ++ ['\r']) key value := by
    rwa [sets_iff, silent_iff, trim_return, ← silent_iff, ← sets_iff]
  cases h with
  | setting writes =>
    obtain ⟨left, _, rfl, hleft, ⟨gap, back, rfl, hgap, hback⟩⟩ := writes
    refine .setting ⟨left, gap ++ _ ++ (back ++ ['\r']), by simp, hleft, gap, _, rfl, hgap, ?_⟩
    intro c hc
    rcases List.mem_append.mp hc with hc | hc
    · exact hback c hc
    · obtain rfl := List.mem_singleton.mp hc
      decide
  | silent silent => exact .silent (by rwa [silent_iff, trim_return, ← silent_iff])
  | other sets unknown => exact .other (hsets sets) unknown
  | earlier sets later => exact .earlier (hsets sets) later

/-! ### All rows -/

section

variable {pending : List Property} {rows : List (List Char)} {key value : List Char} {p : Property}

/-- Whatever the ends of its lines are, the rows of the text are arranged in the same way. -/
lemma Arranges.of_lined {text : List Char} (lined : Lined rows text) (h : Arranges pending rows) :
    Arranges pending (Text.rows text) := by
  induction lined generalizing pending with
  | nil =>
    cases h
    exact .cons (.silent (silent_iff.mpr (.inl rfl))) .nil
  | last single => rwa [Text.rows_of_not_mem single]
  | feed single _ ih =>
    obtain _ | ⟨adds, rest⟩ := h
    rw [Text.rows_append, Text.rows_of_not_mem single]
    exact .cons adds (ih rest)
  | returnFeed single _ ih =>
    obtain _ | ⟨adds, rest⟩ := h
    -- the carriage return stays at the end of the row
    rw [List.append_cons, Text.rows_append, Text.rows_of_not_mem (by simp [single])]
    exact .cons adds.return (ih rest)

lemma Arranges.mem (h : Arranges pending rows) (legible : ∀ p ∈ pending, Legible p) :
    ∀ row ∈ rows, ¬ Silent row → '=' ∈ row := by
  induction h with
  | nil => simp
  | cons adds rest ih =>
    rw [List.forall_mem_cons]
    cases adds with
    | setting writes =>
      obtain ⟨hp, hpending⟩ := List.forall_mem_cons.mp legible
      exact ⟨fun _ => (writes.sets hp).mem, ih hpending⟩
    | silent silent => exact ⟨fun loud => absurd silent loud, ih legible⟩
    | other sets _ | earlier sets _ => exact ⟨fun _ => sets.mem, ih legible⟩

/-- A key of manifests is set only by rows up to the one that writes its setting. -/
lemma Arranges.not_sets (h : Arranges pending rows) (legible : ∀ p ∈ pending, Legible p)
    (known : key ∈ keys) (written : key ∉ pending.map (·.1)) :
    ∀ row ∈ rows, ∀ v, ¬ Sets row key v := by
  induction h with
  | nil => simp
  | cons adds rest ih =>
    rw [List.forall_mem_cons]
    cases adds with
    | setting writes =>
      obtain ⟨hp, hpending⟩ := List.forall_mem_cons.mp legible
      rw [List.map_cons, List.mem_cons, not_or] at written
      exact ⟨fun v h => written.1 (h.inj (writes.sets hp)).1, ih hpending written.2⟩
    | silent silent => exact ⟨fun v h => h.loud silent, ih legible written⟩
    | other sets unknown =>
      refine ⟨fun v h => unknown ?_, ih legible written⟩
      rwa [← (h.inj sets).1]
    | earlier sets later =>
      refine ⟨fun v h => written ?_, ih legible written⟩
      rw [(h.inj sets).1]
      exact List.mem_map_of_mem later

lemma Gives.cons {row : List Char} (h : Gives rows key value) : Gives (row :: rows) key value := by
  obtain ⟨earlier, last, later, rfl, h⟩ := h
  exact ⟨row :: earlier, last, later, rfl, h⟩

/-- Each setting is what the last row for its key says. -/
lemma Arranges.gives (h : Arranges pending rows) (legible : ∀ p ∈ pending, Legible p)
    (known : ∀ p ∈ pending, p.1 ∈ keys) (single : (pending.map (·.1)).Nodup) (hp : p ∈ pending) :
    Gives rows p.1 (unquote p.2) := by
  induction h with
  | nil => simp at hp
  | cons adds rest ih =>
    cases adds with
    | setting writes =>
      obtain ⟨hfirst, hrest⟩ := List.forall_mem_cons.mp legible
      obtain ⟨hkey, hkeys⟩ := List.forall_mem_cons.mp known
      obtain ⟨hnew, hsingle⟩ := List.nodup_cons.mp single
      rcases List.mem_cons.mp hp with rfl | hp
      -- this row writes the setting, and no row behind it sets the key
      · exact ⟨[], _, _, rfl, writes.sets hfirst, rest.not_sets hrest hkey hnew⟩
      · exact (ih hrest hkeys hsingle hp).cons
    | silent _ | other _ _ | earlier _ _ => exact (ih legible known single hp).cons

end

/-! ### The settings of a manifest -/

lemma unquote_quote (value : List Char) : unquote (quote value) = value :=
  unquote_eq_iff.mpr (.inl rfl)

/-- A number has no quotes that could be taken off. -/
lemma unquote_toString (n : Nat) : unquote (toString n).toList = (toString n).toList := by
  refine unquote_eq_iff.mpr (.inr ⟨rfl, fun inner h => ?_⟩)
  have hdigit := (digits_toString n).digit '"' (h ▸ List.mem_cons_self)
  exact absurd hdigit (by decide)

lemma tight_of_forall {cs : List Char} (nonempty : cs ≠ []) (solid : ∀ c ∈ cs, isBlank c = false) :
    Tight cs :=
  ⟨nonempty, fun c hc => solid c (List.mem_of_head? hc),
    fun c hc => solid c (List.mem_of_getLast? hc)⟩

lemma tight_toString (n : Nat) : Tight (toString n).toList :=
  have digits := digits_toString n
  tight_of_forall digits.nonempty fun c hc => isBlank_of_isDigit (digits.digit c hc)

lemma tight_quote (value : List Char) : Tight (quote value) := by
  have hfirst : (quote value).head? = some '"' := rfl
  have hlast : (quote value).getLast? = some '"' := List.getLast?_concat (l := '"' :: value)
  refine ⟨by simp [quote], fun c hc => ?_, fun c hc => ?_⟩
  · obtain rfl := Option.some.inj (hfirst.symm.trans hc)
    rfl
  · obtain rfl := Option.some.inj (hlast.symm.trans hc)
    rfl

lemma legible_settings (m : Manifest) : ∀ p ∈ m.settings, p.1 ∈ keys ∧ Legible p := by
  have hkeys : ∀ k ∈ keys, k ≠ [] ∧ '=' ∉ k ∧ k.head? ≠ some '#' ∧ k.all fun c => !isBlank c := by
    decide
  intro p hp
  obtain ⟨hkey, hvalue⟩ := List.of_mem_zip (a := p.1) (b := p.2) hp
  obtain ⟨nonempty, free, loud, solid⟩ := hkeys p.1 hkey
  refine ⟨hkey, tight_of_forall nonempty (by simpa using solid), free, loud, ?_⟩
  simp only [List.mem_cons, List.not_mem_nil, or_false] at hvalue
  rcases hvalue with h | h | h | h | h <;> rw [h]
  · exact tight_toString _
  · exact tight_toString _
  · exact tight_quote _
  · exact tight_toString _
  · exact tight_quote _

/-- Rows that are the settings in any order, with other rows between them, define the manifest. -/
lemma Arranges.defines {fs : FileSystem} {m : Manifest} (writable : m.Writable fs)
    {order : List Property} (perm : order.Perm m.settings) {rows : List (List Char)}
    (h : Arranges order rows) : Defines fs rows m := by
  have hlegible : ∀ p ∈ order, Legible p := fun p hp =>
    (legible_settings m p (perm.mem_iff.mp hp)).2
  have hknown : ∀ p ∈ order, p.1 ∈ keys := fun p hp =>
    (legible_settings m p (perm.mem_iff.mp hp)).1
  have hsingle : (order.map (·.1)).Nodup := by
    have hkeys : m.settings.map (·.1) = keys := rfl
    rw [(perm.map _).nodup_iff, hkeys]
    decide
  have hgives (p : Property) (hp : p ∈ m.settings) : Gives rows p.1 (unquote p.2) :=
    h.gives hlegible hknown hsingle (perm.mem_iff.mpr hp)
  have hnumber {key : String} {n : Nat} (hp : (key.toList, (toString n).toList) ∈ m.settings) :
      Gives rows key.toList (toString n).toList := by
    have := hgives _ hp
    rwa [unquote_toString] at this
  have htext {key value : String} (hp : (key.toList, quote value.toList) ∈ m.settings) :
      Gives rows key.toList value.toList := by
    have := hgives _ hp
    rwa [unquote_quote] at this
  obtain ⟨size, fragments, ⟨named, plain, -⟩, ⟨placed, -, present⟩⟩ := writable
  exact ⟨h.mem hlegible,
    ⟨_, hnumber (by simp [settings, keys]), .plain (digits_toString _), size⟩,
    ⟨_, hnumber (by simp [settings, keys]), .plain (digits_toString _), fragments⟩,
    ⟨htext (by simp [settings, keys]), named, plain⟩,
    ⟨_, hnumber (by simp [settings, keys]), _, digits_toString _, .inl rfl⟩,
    ⟨htext (by simp [settings, keys]), placed, present⟩⟩

lemma ofText_of_arranges {fs : FileSystem} {m : Manifest} (writable : m.Writable fs)
    {order : List Property} (perm : order.Perm m.settings) {rows : List (List Char)}
    (h : Arranges order rows) {text : String} (lined : Lined rows text.toList) :
    ofText fs text = .ok m :=
  ofText_eq_ok_iff.mpr ((h.of_lined lined).defines writable perm)

/-! ### The plain text -/

lemma lined_rowOf {ps : List Property} (single : ∀ p ∈ ps, '\n' ∉ rowOf p) :
    Lined (ps.map rowOf) (ps.flatMap fun p => rowOf p ++ ['\n']) := by
  induction ps with
  | nil => exact .nil
  | cons p ps ih =>
    obtain ⟨hp, hps⟩ := List.forall_mem_cons.mp single
    rw [List.map_cons, List.flatMap_cons, List.append_assoc]
    exact .feed hp (ih hps)

lemma arranges_rowOf (ps : List Property) : Arranges ps (ps.map rowOf) := by
  induction ps with
  | nil => exact .nil
  | cons p ps ih =>
    have hwrites : Writes (rowOf p) p :=
      writes_of_blanks [] [' '] [' '] [] (by decide) (by simp [rowOf])
    exact .cons (.setting hwrites) ih

lemma not_mem_rowOf {fs : FileSystem} {m : Manifest} (writable : m.Writable fs) :
    ∀ p ∈ m.settings, '\n' ∉ rowOf p := by
  have hkeys : ∀ k ∈ keys, '\n' ∉ k := by decide
  have hnumber (n : Nat) : '\n' ∉ (toString n).toList := fun h =>
    absurd ((digits_toString n).digit _ h) (by decide)
  have hquote {value : List Char} (h : '\n' ∉ value) : '\n' ∉ quote value := by
    simp [quote, h]
  intro p hp
  obtain ⟨hkey, hvalue⟩ := List.of_mem_zip (a := p.1) (b := p.2) hp
  simp only [List.mem_cons, List.not_mem_nil, or_false] at hvalue
  have hvalue : '\n' ∉ p.2 := by
    rcases hvalue with h | h | h | h | h <;> rw [h]
    · exact hnumber _
    · exact hnumber _
    · exact hquote writable.name.2.2
    · exact hnumber _
    · exact hquote writable.source.2.1
  simp [rowOf, hkeys _ hkey, hvalue]

/-! ### Main statement -/

/-- A manifest that is written is read as itself: as the plain text, and with its settings in any
order, any blanks around keys and values, either end of the lines, and blank rows, comments, rows
for other keys and rows for settings that come later in any places. -/
theorem written_manifest_is_read {fs : FileSystem} {m : Manifest} (writable : m.Writable fs) :
    ofText fs m.toText = .ok m ∧
    ∀ order : List Property, order.Perm m.settings → ∀ rows, Arranges order rows →
      ∀ text : String, Lined rows text.toList → ofText fs text = .ok m := by
  have hany (order : List Property) (perm : order.Perm m.settings) (rows : List (List Char))
      (h : Arranges order rows) (text : String) (lined : Lined rows text.toList) :=
    ofText_of_arranges writable perm h lined
  refine ⟨hany m.settings (.refl _) _ (arranges_rowOf _) m.toText ?_, hany⟩
  rw [toText, String.toList_ofList]
  exact lined_rowOf (not_mem_rowOf writable)

/-- A name with blanks at its ends, a comment sign, an equals sign and quotes. -/
def oddlyNamed : Manifest := ⟨4096, 1, " # a = \"b\"\r", 0, "/"⟩

/-- The settings of the odd name from the last to the first, between other rows. -/
def scattered : List (List Char) :=
  ["src_dir=\"/\"", "", "size = none", "\tchecksum\t = 0 ", "# name = b",
    "name = \" # a = \"b\"\r\"", "=", "fragments =1", "size\u2003= 4096"].map
      (·.toList)

/-- Rows with a carriage return and a line feed between them. -/
lemma lined_intercalate {rows : List (List Char)} (single : ∀ row ∈ rows, '\n' ∉ row) :
    Lined rows (List.intercalate ['\r', '\n'] rows) := by
  induction rows with
  | nil => exact .nil
  | cons row rows ih =>
    obtain ⟨hrow, hrows⟩ := List.forall_mem_cons.mp single
    cases rows with
    | nil => simpa using Lined.last hrow
    | cons second rows =>
      rw [List.intercalate_cons_cons, List.append_assoc]
      exact .returnFeed hrow (ih hrows)

lemma arranges_scattered : Arranges oddlyNamed.settings.reverse scattered := by
  have hsettings : oddlyNamed.settings.reverse = [("src_dir".toList, "\"/\"".toList),
      ("checksum".toList, "0".toList), ("name".toList, "\" # a = \"b\"\r\"".toList),
      ("fragments".toList, "1".toList), ("size".toList, "4096".toList)] := by
    decide +kernel
  rw [hsettings]
  refine .cons (.setting (writes_of_blanks [] [] [] [] (by decide) rfl)) ?_
  refine .cons (.silent (silent_iff.mpr (.inl rfl))) ?_
  refine .cons (.earlier (p := ("size".toList, _)) (property?_eq_some_iff.mp rfl) (by simp; rfl)) ?_
  refine .cons (.setting (writes_of_blanks ['\t'] ['\t', ' '] [' '] [' '] (by decide) rfl)) ?_
  refine .cons (.silent (silent_iff.mpr (.inr rfl))) ?_
  refine .cons (.setting (writes_of_blanks [] [' '] [' '] [] (by decide) rfl)) ?_
  refine .cons (.other (property?_eq_some_iff.mp rfl) (by decide)) ?_
  refine .cons (.setting (writes_of_blanks [] [' '] [] [] (by decide) rfl)) ?_
  exact .cons (.setting (writes_of_blanks [] ['\u2003'] [' '] [] (by decide) rfl)) .nil

/-- The odd name survives, also if the settings are scattered over a longer text. -/
theorem odd_name_survives :
    ofText (.empty 0) oddlyNamed.toText = .ok oddlyNamed ∧
    ofText (.empty 0) (String.ofList (List.intercalate ['\r', '\n'] scattered)) =
      .ok oddlyNamed := by
  have writable : oddlyNamed.Writable (.empty 0) :=
    ⟨by decide, by decide, ⟨by decide, isPlain_iff.mp (by decide), by decide⟩,
      ⟨by decide, by decide, rfl⟩⟩
  obtain ⟨plain, scatter⟩ := written_manifest_is_read writable
  refine ⟨plain, scatter _ (List.reverse_perm _) _ arranges_scattered _ ?_⟩
  rw [String.toList_ofList]
  exact lined_intercalate (by decide)

end DeviceUpdate.Manifest
