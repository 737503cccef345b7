import DeviceUpdate.Config
import DeviceUpdate.Proofs.Json.Grammar
import DeviceUpdate.Proofs.Text.Utf8

/-!
# Configuration files

A configuration that is written as JSON is read as itself, however the text is laid out. An object
that holds some of the settings gives those, and the defaults for the others, whatever unknown
members it has; an object that says a setting twice or with a wrong value gives none at all.
-/

namespace DeviceUpdate.Config

open Json (Written Blank fieldOr asText? asBool? asNat?)

/-- The settings with their keys, as JSON values. -/
def settings (c : Config) : List (String × Json) :=
  keys.zip [.ofString c.downloadDirectory, .bool c.onTheFly, .ofString c.firmwareVersion,
    .ofNat c.rebootDelaySeconds, .ofNat c.commandTimeoutSeconds, .ofString c.flashTable,
    .ofString c.mountTable]

/-- The numbers of seconds fit. -/
structure Bounded (c : Config) : Prop where
  delay : c.rebootDelaySeconds ≤ secondsLimit
  timeout : c.commandTimeoutSeconds ≤ secondsLimit

/-- The settings of `c` for the chosen keys, and those of `d` for the others. -/
def choose (chosen : List String) (c d : Config) : Config :=
  let pick {α : Type} (key : String) (a b : α) : α := if key ∈ chosen then a else b
  { downloadDirectory := pick "firmware_download_path" c.downloadDirectory d.downloadDirectory
    onTheFly := pick "on_the_fly" c.onTheFly d.onTheFly
    firmwareVersion := pick "firmware_version" c.firmwareVersion d.firmwareVersion
    rebootDelaySeconds := pick "reboot_delay_secs" c.rebootDelaySeconds d.rebootDelaySeconds
    commandTimeoutSeconds :=
      pick "command_timeout_secs" c.commandTimeoutSeconds d.commandTimeoutSeconds
    flashTable := pick "mtd_info_path" c.flashTable d.flashTable
    mountTable := pick "mounts_path" c.mountTable d.mountTable }

/-- The value can be the setting with this key. -/
inductive Fits : String → Json → Prop
  | text {key : String} (s : String)
      (kind : key ∈ ["firmware_download_path", "firmware_version", "mtd_info_path",
        "mounts_path"]) : Fits key (.ofString s)
  | flag (b : Bool) : Fits "on_the_fly" (.bool b)
  | seconds {key : String} {n : Nat} (kind : key ∈ ["reboot_delay_secs", "command_timeout_secs"])
      (bound : n ≤ secondsLimit) : Fits key (.ofNat n)

/-- The members say a setting twice, or with a value that it cannot have. -/
def Spoiled (members : List (Option String × Json)) : Prop :=
  ∃ key ∈ keys, 1 < (members.filter fun m => m.1 == some key).length ∨
    ∃ j, (some key, j) ∈ members ∧ ¬ Fits key j

/-! ### Reading the members of an object -/

/-- The value of the first member with this key. -/
def field (members : List (Option String × Json)) (key : String) : Option Json :=
  (members.find? fun m => m.1 == some key).map (·.2)

/-- All keys are texts, and no setting comes twice. -/
structure Unambiguous (members : List (Option String × Json)) : Prop where
  texts : ∀ m ∈ members, m.1.isSome
  single : ∀ key ∈ keys, (members.filter fun m => m.1 == some key).length ≤ 1

/-- The fields are read as these settings. -/
structure Reads (members : List (Option String × Json)) (base c : Config) : Prop where
  directory : fieldOr asText? base.downloadDirectory (field members "firmware_download_path") =
    some c.downloadDirectory
  fly : fieldOr asBool? base.onTheFly (field members "on_the_fly") = some c.onTheFly
  version : fieldOr asText? base.firmwareVersion (field members "firmware_version") =
    some c.firmwareVersion
  delay : fieldOr (asNat? secondsLimit) base.rebootDelaySeconds
    (field members "reboot_delay_secs") = some c.rebootDelaySeconds
  timeout : fieldOr (asNat? secondsLimit) base.commandTimeoutSeconds
    (field members "command_timeout_secs") = some c.commandTimeoutSeconds
  flash : fieldOr asText? base.flashTable (field members "mtd_info_path") = some c.flashTable
  mounts : fieldOr asText? base.mountTable (field members "mounts_path") = some c.mountTable

lemma fields?_eq_some_iff {members : List (Option String × Json)} {values : List (Option Json)} :
    (Json.object members).fields? keys = some values ↔
      Unambiguous members ∧ keys.map (field members) = values := by
  have hcondition : (members.all (fun m => m.1.isSome) &&
      keys.all fun key => (members.filter fun m => m.1 == some key).length ≤ 1) ↔
        Unambiguous members := by
    simp only [Bool.and_eq_true, List.all_eq_true, decide_eq_true_eq]
    exact ⟨fun ⟨texts, single⟩ => ⟨texts, single⟩, fun h => ⟨h.texts, h.single⟩⟩
  rw [Json.fields?]
  split <;> rename_i h
  · rw [Option.some.injEq, hcondition] at *
    exact ⟨fun same => ⟨h, same⟩, And.right⟩
  · rw [hcondition] at h
    simp [h]

lemma ofJson?_object_eq_some_iff {members : List (Option String × Json)} {c : Config} :
    ofJson? (.object members) = some c ↔ Unambiguous members ∧ Reads members {} c := by
  rw [ofJson?, ofJsonOver?]
  simp only [Option.bind_eq_bind, Option.bind_eq_some_iff, fields?_eq_some_iff]
  constructor
  · rintro ⟨_, ⟨unambiguous, rfl⟩, h⟩
    simp only [keys, List.map_cons, List.map_nil, Option.bind_eq_some_iff, Option.pure_def,
      Option.some.injEq] at h
    obtain ⟨_, directory, _, fly, _, version, _, delay, _, timeout, _, flash, _, mounts, rfl⟩ := h
    exact ⟨unambiguous, directory, fly, version, delay, timeout, flash, mounts⟩
  · rintro ⟨unambiguous, h⟩
    refine ⟨_, ⟨unambiguous, rfl⟩, ?_⟩
    simp [keys, h.directory, h.fly, h.version, h.delay, h.timeout, h.flash, h.mounts]

lemma asText?_eq_some_iff {j : Json} {s : String} : asText? j = some s ↔ j = .ofString s := by
  cases j <;> simp [asText?, Json.ofString]

lemma asBool?_eq_some_iff {j : Json} {b : Bool} : asBool? j = some b ↔ j = .bool b := by
  cases j <;> simp [asBool?]

lemma asNat?_eq_some_iff {j : Json} {hi n : Nat} :
    asNat? hi j = some n ↔ j = .ofNat n ∧ n ≤ hi := by
  cases j with
  | integer negative m =>
    cases negative <;> simp only [asNat?, Json.ofNat, Json.integer.injEq]
    · split <;> simp <;> omega
    · simp
  | _ => simp [asNat?, Json.ofNat]

/-! ### Objects that give no configuration -/

lemma field_of_mem {members : List (Option String × Json)} {key : String} {j : Json}
    (known : key ∈ keys) (h : Unambiguous members) (mem : (some key, j) ∈ members) :
    field members key = some j := by
  -- the first member with the key is the only one
  have single := h.single key known
  have found : (some key, j) ∈ members.filter fun m => m.1 == some key := by simp [mem]
  obtain ⟨m, hm⟩ := List.length_eq_one_iff.mp
    (Nat.le_antisymm single (List.length_pos_of_mem found))
  rw [hm, List.mem_singleton] at found
  rw [field, ← List.head?_filter, hm, ← found]
  rfl

lemma ofJson?_spoiled {members : List (Option String × Json)} (h : Spoiled members) :
    ofJson? (.object members) = none := by
  rw [Option.eq_none_iff_forall_ne_some]
  intro c hc
  obtain ⟨unambiguous, reads⟩ := ofJson?_object_eq_some_iff.mp hc
  obtain ⟨key, known, twice | ⟨j, mem, misfit⟩⟩ := h
  · exact absurd (unambiguous.single key known) (by omega)
  · have holds := field_of_mem known unambiguous mem
    have htext {d v : String} (h : fieldOr asText? d (some j) = some v)
        (kind : key ∈ ["firmware_download_path", "firmware_version", "mtd_info_path",
          "mounts_path"]) : Fits key j := by
      rw [asText?_eq_some_iff.mp h]
      exact .text v kind
    have hseconds {d v : Nat} (h : fieldOr (asNat? secondsLimit) d (some j) = some v)
        (kind : key ∈ ["reboot_delay_secs", "command_timeout_secs"]) : Fits key j := by
      obtain ⟨rfl, bound⟩ := asNat?_eq_some_iff.mp h
      exact .seconds kind bound
    refine misfit ?_
    simp only [keys, List.mem_cons, List.not_mem_nil, or_false] at known
    rcases known with rfl | rfl | rfl | rfl | rfl | rfl | rfl
    · exact htext (holds ▸ reads.directory) (by simp)
    · obtain rfl := asBool?_eq_some_iff.mp (holds ▸ reads.fly)
      exact .flag _
    · exact htext (holds ▸ reads.version) (by simp)
    · exact hseconds (holds ▸ reads.delay) (by simp)
    · exact hseconds (holds ▸ reads.timeout) (by simp)
    · exact htext (holds ▸ reads.flash) (by simp)
    · exact htext (holds ▸ reads.mounts) (by simp)

/-! ### Objects that hold chosen settings -/

/-- A key of an object, as the reader keeps it. -/
def named (members : List (String × Json)) : List (Option String × Json) :=
  members.map fun m => (some m.1, m.2)

section

variable {c : Config} {chosen : List String} {unknown members : List (String × Json)}

/-- No two settings have one key. -/
lemma filter_settings {m : String × Json} (mem : m ∈ c.settings) :
    c.settings.filter (fun n => n.1 == m.1) = [m] := by
  have hall : ∀ m ∈ c.settings, c.settings.filter (fun n => n.1 == m.1) = [m] := by
    simp [settings, keys]
  exact hall m mem

/-- Of a known key there is the chosen setting, or nothing. -/
lemma filter_chosen (foreign : ∀ m ∈ unknown, m.1 ∉ keys)
    (perm : members.Perm (c.settings.filter (·.1 ∈ chosen) ++ unknown)) {key : String} {j : Json}
    (mem : (key, j) ∈ c.settings) :
    members.filter (fun m => m.1 == key) = if key ∈ chosen then [(key, j)] else [] := by
  have hunknown : unknown.filter (fun m => m.1 == key) = [] := by
    rw [List.filter_eq_nil_iff]
    rintro m hm hkey
    exact foreign m hm (eq_of_beq hkey ▸ (List.of_mem_zip mem).1)
  have hchosen : (c.settings.filter (·.1 ∈ chosen)).filter (fun m => m.1 == key) =
      if key ∈ chosen then [(key, j)] else [] := by
    rw [List.filter_comm, filter_settings mem]
    split_ifs with h <;> simp [h]
  have hperm := perm.filter fun m => m.1 == key
  rw [List.filter_append, hunknown, hchosen, List.append_nil] at hperm
  split_ifs at hperm ⊢
  · exact List.perm_singleton.mp hperm
  · exact List.perm_nil.mp hperm

lemma filter_named (key : String) : (named members).filter (fun m => m.1 == some key) =
    named (members.filter fun m => m.1 == key) := by
  have hname : (fun m : Option String × Json => m.1 == some key) ∘
      (fun m : String × Json => (some m.1, m.2)) = fun m => m.1 == key := by
    funext m
    simp
  rw [named, List.filter_map, hname]
  rfl

/-- The object is read as the chosen settings and the defaults for the others. -/
lemma ofJson?_chosen (bounded : c.Bounded) (foreign : ∀ m ∈ unknown, m.1 ∉ keys)
    (perm : members.Perm (c.settings.filter (·.1 ∈ chosen) ++ unknown)) :
    ofJson? (.ofMembers members) = some (choose chosen c {}) := by
  have hfilter {key : String} {j : Json} (mem : (key, j) ∈ c.settings) :
      (named members).filter (fun m => m.1 == some key) =
        if key ∈ chosen then [(some key, j)] else [] := by
    rw [filter_named, filter_chosen foreign perm mem]
    split_ifs <;> rfl
  have hfield {α : Type} {key : String} {j : Json} {read : Json → Option α} {a d : α}
      (mem : (key, j) ∈ c.settings) (reads : read j = some a) :
      fieldOr read d (field (named members) key) = some (if key ∈ chosen then a else d) := by
    rw [field, ← List.head?_filter, hfilter mem]
    split
    · exact reads
    · rfl
  refine ofJson?_object_eq_some_iff.mpr ⟨⟨?_, fun key known => ?_⟩, ?_, ?_, ?_, ?_, ?_, ?_, ?_⟩
  · exact List.forall_mem_map.mpr fun m _ => rfl
  · obtain ⟨j, mem⟩ : ∃ j, (key, j) ∈ c.settings := by
      simpa [settings, keys, exists_or] using known
    show ((named members).filter _).length ≤ 1
    rw [hfilter mem]
    split <;> simp
  · exact hfield (by simp [settings, keys]) (asText?_eq_some_iff.mpr rfl)
  · exact hfield (by simp [settings, keys]) (asBool?_eq_some_iff.mpr rfl)
  · exact hfield (by simp [settings, keys]) (asText?_eq_some_iff.mpr rfl)
  · exact hfield (by simp [settings, keys]) (asNat?_eq_some_iff.mpr ⟨rfl, bounded.delay⟩)
  · exact hfield (by simp [settings, keys]) (asNat?_eq_some_iff.mpr ⟨rfl, bounded.timeout⟩)
  · exact hfield (by simp [settings, keys]) (asText?_eq_some_iff.mpr rfl)
  · exact hfield (by simp [settings, keys]) (asText?_eq_some_iff.mpr rfl)

end

lemma ofJson?_toJson {c : Config} (bounded : c.Bounded) : ofJson? c.toJson = some c := by
  have hall : c.settings.filter (·.1 ∈ keys) ++ [] = c.settings := by simp [settings, keys]
  have hchosen : ofJson? (.ofMembers c.settings) = some (choose keys c {}) :=
    ofJson?_chosen bounded (by simp) (.of_eq hall.symm)
  have hself : choose keys c {} = c := by simp [choose, keys]
  rwa [hself] at hchosen

lemma plain_toJson (c : Config) : Json.Plain c.toJson := by
  refine .ofMembers ?_
  simp

/-! ### Main statement -/

/-- What a configuration file with this text gives. A printed configuration is read as itself. An
object of chosen settings and unknown members, in any order and layout, is read as the chosen
settings and the defaults for the others. An object that says a setting twice or with a wrong
value, and one with text behind it, is not read. -/
theorem configuration_file {fs : FileSystem} {path text : String}
    (held : fs.read path = .ok (Text.encodeUtf8 text)) :
    (∀ c : Config, c.Bounded → text = c.toJson.compact ∨ text = Json.pretty 0 c.toJson →
      load fs path = .ok c) ∧
    (∀ (c : Config) (chosen : List String) (unknown members : List (String × Json)), c.Bounded →
      (∀ m ∈ unknown, m.1 ∉ keys) → members.Perm (c.settings.filter (·.1 ∈ chosen) ++ unknown) →
      Written text.toList (.ofMembers members) → load fs path = .ok (choose chosen c {})) ∧
    (∀ members, Written text.toList (.object members) → Spoiled members →
      ∃ reason, load fs path = .error (.serialization reason)) ∧
    ∀ front more members, text.toList = front ++ more → Written front (.object members) →
      ¬ Blank more → ∃ reason, load fs path = .error (.serialization reason) := by
  have hload : load fs path = ofText text := by
    rw [load, FileSystem.readText_eq_ok_iff.mpr held]
  rw [hload]
  have hread {j : Json} {c : Config} (spelled : Json.ofText? text = some j)
      (reads : ofJson? j = some c) : ofText text = .ok c := by
    simp only [ofText, spelled, reads]
  refine ⟨?_, ?_, ?_, ?_⟩
  · rintro c bounded printed
    refine hread ?_ (ofJson?_toJson bounded)
    rcases printed with rfl | rfl
    · exact (plain_toJson c).written_compact.ofText?_eq
    · exact (Json.spells_pretty (plain_toJson c) 0).ofText?_eq
  · intro c chosen unknown members bounded foreign perm written
    exact hread written.ofText?_eq (ofJson?_chosen bounded foreign perm)
  · intro members written spoiled
    exact ⟨"not a configuration",
      by simp only [ofText, written.ofText?_eq, ofJson?_spoiled spoiled]⟩
  · intro front more members parts written something
    have none : Json.ofText? text = none := by
      rw [← text.ofList_toList, parts]
      exact written.ofText?_append something
    exact ⟨"not a JSON text", by simp only [ofText, none]⟩

/-- The text is the content of the file `c`. -/
def holding (text : String) : FileSystem :=
  ⟨#[.directory 0 [("c", 1)], .file (Text.encodeUtf8 text) false], 0, 0, 0, none⟩

/-- A version with an escape, behind an unknown member that holds what no setting can hold. -/
def laidOut : String :=
  "\x7b \"note\" : [ -1.5E+3, \"\\ud800\"],\n\"firmware_version\":\"1\\u002e2\"\x7d\n"

def layout : List Json.Member :=
  [⟨[' '], "note\"".toList, [' '], " [ -1.5E+3, \"\\ud800\"]".toList, some "note",
      .array [.real, .string none]⟩,
    ⟨['\n'], "firmware_version\"".toList, [], "\"1\\u002e2\"".toList, some "firmware_version",
      .ofString "1.2"⟩]

lemma spellsString_of_quote {s : String} {cs : List Char} (h : (Json.quote s).toList = '"' :: cs) :
    Json.SpellsString cs (some s) := by
  obtain ⟨spelling, printed, spelled⟩ := Json.spells_quote s
  obtain rfl := (List.cons.inj (printed.symm.trans h)).2
  exact Json.spellsText_iff.mp spelled

lemma written_note :
    Written " [ -1.5E+3, \"\\ud800\"]".toList (.array [.real, .string none]) := by
  have hdigits : Json.Numeral ['1'] := ⟨by simp [Json.isDigit], by decide, by decide⟩
  have hfraction : Json.Fraction ['.', '5'] := .some (by decide) (by simp [Json.isDigit])
  have hexponent : Json.Exponent ('E' :: (['+'] ++ ['3'])) :=
    .some (.inr rfl) (by decide) (by decide) (by simp [Json.isDigit])
  have hnumber : Written "-1.5E+3".toList .real :=
    .real true hdigits hfraction hexponent (by decide)
  have hhalf : Json.SpellsString "\\ud800\"".toList none :=
    Json.spellsText_iff.mp
      ⟨[['\\', 'u', 'd', '8', '0', '0']], _, .cons (.hex rfl) .nil, rfl, rfl⟩
  have hitems := Written.array [' '] [("-1.5E+3".toList, .real),
    (" \"\\ud800\"".toList, .string none)] (by decide) (by
      simp only [List.forall_mem_cons, List.not_mem_nil, false_implies, implies_true, and_true]
      exact ⟨hnumber, .padded [' '] [] (by decide) (.string hhalf) (by decide)⟩)
  exact .padded [' '] [] (by decide) hitems (by decide)

lemma written_laidOut : Written laidOut.toList (.ofMembers [("note", .array [.real, .string none]),
    ("firmware_version", .ofString "1.2")]) := by
  have hversion : Json.SpellsString "1\\u002e2\"".toList (some "1.2") := by
    refine .text ⟨[['1'], ['\\', 'u', '0', '0', '2', 'e'], ['2']], ?_, rfl⟩
    have hpoint : Json.Quad ['\\', 'u', '0', '0', '2', 'e'] ('.').toNat :=
      .digits (w := 0) (x := 0) (y := 2) (z := 14) (by decide) (by decide) (by decide) (by decide)
    exact .cons (.plain (by decide) (by decide) (by decide)) (.cons (.hex hpoint)
      (.cons (.plain (by decide) (by decide) (by decide)) .nil))
  have hformed : ∀ m ∈ layout, m.Formed := by
    simp only [layout, List.forall_mem_cons, List.not_mem_nil, false_implies, implies_true,
      and_true]
    exact ⟨⟨by decide, spellsString_of_quote (by decide +kernel), by decide⟩,
      by decide, spellsString_of_quote (by decide +kernel), by decide⟩
  have hwritten : ∀ m ∈ layout, Written m.value m.content := by
    simp only [layout, List.forall_mem_cons, List.not_mem_nil, false_implies, implies_true,
      and_true]
    exact ⟨written_note, .string hversion⟩
  have hobject := Written.object [] layout (by decide) hformed hwritten
  have htext : laidOut.toList = [] ++ '\x7b' :: ([] ++ List.intercalate [',']
      (layout.map Json.Member.chars) ++ ['\x7d']) ++ ['\n'] := by
    decide +kernel
  rw [htext]
  exact .padded [] ['\n'] (by decide) hobject (by decide)

/-- The layout changes nothing; with a version in it that is said twice, with a number for a switch,
or with a second object behind it, a file gives no configuration. -/
theorem laid_out_configuration_is_read :
    let twice := Json.ofMembers [("firmware_version", .ofString "1"), ("firmware_version", .null)]
    let misfit := Json.ofMembers [("on_the_fly", .ofNat 1)]
    load (holding laidOut) "c" = .ok { firmwareVersion := "1.2" } ∧
    load (holding (Json.compact (toJson {}))) "c" = .ok {} ∧
    (∃ reason, load (holding twice.compact) "c" = .error (.serialization reason)) ∧
    (∃ reason, load (holding misfit.compact) "c" = .error (.serialization reason)) ∧
    ∃ reason, load (holding (laidOut ++ "\x7b\x7d")) "c" = .error (.serialization reason) := by
  have held (text : String) : (holding text).read "c" = .ok (Text.encodeUtf8 text) := rfl
  intro twice misfit
  refine ⟨?_, ?_, ?_, ?_, ?_⟩
  · refine (configuration_file (held _)).2.1 { firmwareVersion := "1.2" } ["firmware_version"]
      [("note", .array [.real, .string none])] _ ⟨by decide, by decide⟩ ?_ ?_ written_laidOut
    · simp [keys]
    · exact .swap _ _ _
  · exact (configuration_file (held _)).1 {} ⟨by decide, by decide⟩ (.inl rfl)
  · refine (configuration_file (held _)).2.2.1 _ (Json.Plain.written_compact (.ofMembers ?_))
      ⟨"firmware_version", by decide, .inl (by decide)⟩
    simpa using Json.Plain.null
  · refine (configuration_file (held _)).2.2.1 _ (Json.Plain.written_compact (.ofMembers ?_))
      ⟨"on_the_fly", by decide, .inr ⟨.ofNat 1, by simp, ?_⟩⟩
    · simp
    · rintro (_ | _ | ⟨kind, -⟩)
      simp at kind
  · exact (configuration_file (held _)).2.2.2 laidOut.toList "\x7b\x7d".toList _ (by simp)
      written_laidOut (by decide)

end DeviceUpdate.Config
