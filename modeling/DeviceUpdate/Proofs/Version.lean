import DeviceUpdate.Proofs.Text.Number
import DeviceUpdate.Proofs.Text.Rows
import DeviceUpdate.Target
import Mathlib.Data.List.GetD

/-!
# Version texts

The tokens of a version text stand between its dots. The first of them that are numbers up to 255,
four at most, give the parts of the version, and the parts that are left are zero. A version is
written so that it is read as itself.
-/

namespace DeviceUpdate

namespace Version

open Text (Trims Pieces Unsigned isBlank)

/-- The token is a number up to 255, with blanks around it or without. -/
def Part (token : List Char) (n : Nat) : Prop :=
  ∃ number, Trims token number ∧ Unsigned number n ∧ n ≤ 255

/-- The tokens stand between the dots of the text, the blanks at the ends of the text left out. -/
def Tokens (text : String) (tokens : List (List Char)) : Prop :=
  ∃ trimmed, Trims text.toList trimmed ∧ Pieces '.' trimmed tokens

/-- The longest run of parts that the first four tokens begin with. -/
structure Leads (tokens run : List (List Char)) : Prop where
  begins : run <+: tokens.take 4
  parts : ∀ token ∈ run, ∃ n, Part token n
  longest : ∀ other, other <+: tokens.take 4 → (∀ token ∈ other, ∃ n, Part token n) →
    other.length ≤ run.length

/-- The version has the values of the run, and zeros behind them. -/
structure Takes (v : Version) (run : List (List Char)) : Prop where
  given : ∀ (k : Nat) (token : List Char), run[k]? = some token →
    ∃ value, v.parts[k]? = some value ∧ Part token value.toNat
  padded : ∀ k, run.length ≤ k → k < 4 → v.parts[k]? = some 0

section Reading

variable {text : String} {token : List Char} {tokens run : List (List Char)} {v : Version}

/-! ### Parts -/

lemma part?_eq_some_iff {value : UInt8} : part? token = some value ↔ Part token value.toNat := by
  rw [part?]
  constructor
  · intro h
    split at h
    · rename_i n hread
      obtain rfl : n.toUInt8 = value := Option.some.inj h
      obtain ⟨number, small⟩ := Text.readNatural_eq_ok_iff.mp hread
      have hvalue : n.toUInt8.toNat = n := UInt8.toNat_ofNat_of_lt' (Nat.lt_succ_of_le small)
      rw [hvalue]
      exact ⟨_, Text.trims_trim token, number, small⟩
    · cases h
  · rintro ⟨number, trims, unsigned, small⟩
    rw [trims.trim_eq, Text.readNatural_eq_ok_iff.mpr ⟨unsigned, small⟩]
    simp

lemma part_iff : (∃ n, Part token n) ↔ ∃ value, part? token = some value := by
  constructor
  · rintro ⟨n, part⟩
    have small : n < UInt8.size := Nat.lt_succ_of_le part.choose_spec.2.2
    refine ⟨UInt8.ofNatLT n small, part?_eq_some_iff.mpr ?_⟩
    rwa [UInt8.toNat_ofNatLT]
  · rintro ⟨value, h⟩
    exact ⟨_, part?_eq_some_iff.mp h⟩

/-- The values belong to the tokens in front of the first one that is no part. -/
lemma exists_run (tokens : List (List Char)) : ∃ run rest, tokens = run ++ rest ∧
    List.Forall₂ (fun token value => Part token value.toNat) run (leadingParts tokens) ∧
    ∀ token, rest.head? = some token → ¬ ∃ n, Part token n := by
  induction tokens with
  | nil => exact ⟨[], [], rfl, .nil, by simp⟩
  | cons token tokens ih =>
    rw [leadingParts]
    cases hpart : part? token with
    | some value =>
      obtain ⟨run, rest, rfl, values, ends⟩ := ih
      exact ⟨token :: run, rest, rfl, .cons (part?_eq_some_iff.mp hpart) values, ends⟩
    | none => exact ⟨[], token :: tokens, rfl, .nil, by simp [part_iff, hpart]⟩

/-! ### Runs -/

lemma Leads.unique {run' : List (List Char)} (h : Leads tokens run) (h' : Leads tokens run') :
    run = run' := by
  have hlength : run.length = run'.length :=
    Nat.le_antisymm (h'.longest run h.begins h.parts) (h.longest run' h'.begins h'.parts)
  have hprefix : run <+: run' := List.prefix_of_prefix_length_le h.begins h'.begins hlength.le
  exact hprefix.eq_of_length hlength

/-- Without a first part there is no run, and with one there is. -/
lemma Leads.eq_nil_iff (h : Leads tokens run) :
    run = [] ↔ ∀ token, tokens.head? = some token → ¬ ∃ n, Part token n := by
  constructor
  · rintro rfl token first part
    obtain ⟨rest, rfl⟩ := List.head?_eq_some_iff.mp first
    have := h.longest [token] (by simp [List.prefix_iff_eq_take]) (by simpa using part)
    simp at this
  · intro none
    cases run with
    | nil => rfl
    | cons token run =>
      obtain ⟨rest, hrest⟩ := h.begins
      have first : tokens.head? = some token := by
        have htake : (tokens.take 4).head? = tokens.head? := by simp [List.head?_take]
        rw [← htake, ← hrest]
        rfl
      exact absurd (h.parts token List.mem_cons_self) (none token first)

/-- The version with these parts, and zeros for those that are missing. -/
def ofParts (values : List UInt8) : Version :=
  ⟨values.getD 0 0, values.getD 1 0, values.getD 2 0, values.getD 3 0⟩

lemma parts_ofParts (values : List UInt8) {k : Nat} (h : k < 4) :
    (ofParts values).parts[k]? = some (values.getD k 0) := by
  obtain rfl | rfl | rfl | rfl : k = 0 ∨ k = 1 ∨ k = 2 ∨ k = 3 := by omega
  all_goals rfl

lemma ext_parts {w : Version} (h : ∀ k < 4, v.parts[k]? = w.parts[k]?) : v = w := by
  have hparts : v.parts = w.parts := by
    refine List.ext_getElem? fun k => ?_
    by_cases hk : k < 4
    · exact h k hk
    · simp [parts, hk]
  obtain ⟨_, _, _, _⟩ := v
  obtain ⟨_, _, _, _⟩ := w
  simpa [parts] using hparts

/-- A token has one value, so a run gives one version. -/
lemma Takes.unique {w : Version} (hv : v.Takes run) (hw : w.Takes run) : v = w := by
  refine ext_parts fun k hk => ?_
  by_cases hrun : k < run.length
  · obtain ⟨a, ha, hpart⟩ := hv.given k _ (List.getElem?_eq_getElem hrun)
    obtain ⟨b, hb, hpart'⟩ := hw.given k _ (List.getElem?_eq_getElem hrun)
    have hab := (part?_eq_some_iff.mpr hpart).symm.trans (part?_eq_some_iff.mpr hpart')
    rw [ha, hb, hab]
  · rw [hv.padded k (by omega) hk, hw.padded k (by omega) hk]

/-! ### Texts -/

lemma exists_tokens (text : String) : ∃ tokens, Tokens text tokens :=
  ⟨_, _, Text.trims_trim _, Text.pieces_split '.' _⟩

lemma ofText?_eq (h : Tokens text tokens) : ofText? text =
    if leadingParts (tokens.take 4) = [] then none
    else some (ofParts (leadingParts (tokens.take 4))) := by
  obtain ⟨trimmed, trims, pieces⟩ := h
  rw [ofText?, trims.trim_eq, pieces.split_eq]
  generalize leadingParts (tokens.take 4) = values
  rcases values with _ | ⟨a, _ | ⟨b, _ | ⟨c, _ | ⟨d, rest⟩⟩⟩⟩ <;> rfl

/-- The tokens in front of the first that is no part are the longest run. -/
lemma leads_of_ends {rest : List (List Char)} {values : List UInt8}
    (hrun : tokens.take 4 = run ++ rest)
    (hvalues : List.Forall₂ (fun token value => Part token value.toNat) run values)
    (ends : ∀ token, rest.head? = some token → ¬ ∃ n, Part token n) : Leads tokens run := by
  refine ⟨⟨rest, hrun.symm⟩, fun token htoken => ?_, fun other begins others => ?_⟩
  · obtain ⟨k, hk, rfl⟩ := List.getElem_of_mem htoken
    exact ⟨_, hvalues.get hk (hvalues.length_eq ▸ hk)⟩
  · by_contra hlong
    -- a longer run goes on with the token that is no part
    rw [hrun] at begins
    obtain ⟨more, rfl⟩ : run <+: other :=
      List.prefix_of_prefix_length_le (List.prefix_append run rest) begins (by omega)
    obtain ⟨behind, rfl⟩ := (List.prefix_append_right_inj run).mp begins
    cases more with
    | nil => simp at hlong
    | cons token more => exact ends token rfl (others token (by simp))

/-- The values of a run make up a version that takes them. -/
lemma takes_ofParts {values : List UInt8}
    (h : List.Forall₂ (fun token value => Part token value.toNat) run values)
    (short : run.length ≤ 4) : (ofParts values).Takes run := by
  have hlength := h.length_eq
  constructor
  · intro k token htoken
    obtain ⟨hk, rfl⟩ := List.getElem?_eq_some_iff.mp htoken
    refine ⟨values[k], ?_, h.get hk (hlength ▸ hk)⟩
    rw [parts_ofParts values (by omega), List.getD_eq_getElem _ _ (hlength ▸ hk)]
  · intro k hk hfour
    rw [parts_ofParts values hfour, List.getD_eq_default _ _ (hlength ▸ hk)]

/-- A text is read by the longest run of its tokens, if that is not empty. -/
lemma exists_leads (h : Tokens text tokens) : ∃ run, Leads tokens run ∧
    (run = [] ∧ ofText? text = none ∨ run ≠ [] ∧ ∃ v, ofText? text = some v ∧ v.Takes run) := by
  obtain ⟨run, rest, hrun, values, ends⟩ := exists_run (tokens.take 4)
  have hshort : run.length ≤ 4 := by
    have hfour := List.length_take_le 4 tokens
    rw [hrun, List.length_append] at hfour
    omega
  refine ⟨run, leads_of_ends hrun values ends, ?_⟩
  have hnil : leadingParts (tokens.take 4) = [] ↔ run = [] := by
    rw [← List.length_eq_zero_iff, ← values.length_eq, List.length_eq_zero_iff]
  rw [ofText?_eq h]
  by_cases hempty : run = []
  · exact .inl ⟨hempty, if_pos (hnil.mpr hempty)⟩
  · exact .inr ⟨hempty, _, if_neg (mt hnil.mp hempty), takes_ofParts values hshort⟩

lemma ofText?_eq_some_iff (h : Tokens text tokens) :
    ofText? text = some v ↔ ∃ run, run ≠ [] ∧ Leads tokens run ∧ v.Takes run := by
  obtain ⟨run, leads, ⟨hempty, hnone⟩ | ⟨hrun, w, hw, takes⟩⟩ := exists_leads h
  · simp only [hnone, reduceCtorEq, false_iff]
    rintro ⟨other, hother, others, -⟩
    exact hother (others.unique leads ▸ hempty)
  · rw [hw, Option.some.injEq]
    constructor
    · rintro rfl
      exact ⟨run, hrun, leads, takes⟩
    · rintro ⟨other, -, others, hv⟩
      obtain rfl := others.unique leads
      exact takes.unique hv

lemma ofText?_eq_none_iff (h : Tokens text tokens) :
    ofText? text = none ↔ ∀ token, tokens.head? = some token → ¬ ∃ n, Part token n := by
  obtain ⟨run, leads, ⟨hempty, hnone⟩ | ⟨hrun, w, hw, -⟩⟩ := exists_leads h
  · exact iff_of_true hnone (leads.eq_nil_iff.mp hempty)
  · exact iff_of_false (by simp [hw]) (mt leads.eq_nil_iff.mpr hrun)

/-- Tokens behind the fourth are not looked at. -/
lemma ofText?_congr {text' : String} {tokens' : List (List Char)} (h : Tokens text tokens)
    (h' : Tokens text' tokens') (same : tokens.take 4 = tokens'.take 4) :
    ofText? text = ofText? text' := by
  rw [ofText?_eq h, ofText?_eq h', same]

end Reading

/-! ### Written versions -/

/-- The parts of a version as they are written. -/
def written (v : Version) : List (List Char) := v.parts.map fun part => (toString part.toNat).toList

lemma toList_text (v : Version) : v.text.toList = List.intercalate ['.'] v.written := by
  have hpart (part : UInt8) : toString part = toString part.toNat := rfl
  have hdot : (toString ".").toList = ['.'] := rfl
  simp only [text, written, parts, String.toList_append, hpart, hdot, List.map_cons, List.map_nil,
    List.intercalate_cons_cons, List.intercalate_singleton, List.append_assoc]

/-- What is written of a part is digits, which are neither blank nor a dot. -/
lemma isDigit_of_written {v : Version} {w : List Char} (hw : w ∈ v.written) :
    ∀ c ∈ w, c.isDigit := by
  obtain ⟨part, -, rfl⟩ := List.mem_map.mp hw
  exact (Text.digits_toString part.toNat).digit

lemma trims_of_solid {cs : List Char} (solid : ∀ c ∈ cs, isBlank c = false) : Trims cs cs :=
  ⟨⟨[], [], by simp, by simp, by simp⟩, fun c hc => solid c (List.mem_of_head? hc),
    fun c hc => solid c (List.mem_of_getLast? hc)⟩

lemma part_toString (part : UInt8) : Part (toString part.toNat).toList part.toNat := by
  have digits := Text.digits_toString part.toNat
  have trims := trims_of_solid fun c hc => Text.isBlank_of_isDigit (digits.digit c hc)
  exact ⟨_, trims, ⟨_, digits, .inl rfl⟩, Nat.le_of_lt_succ part.toNat_lt⟩

lemma tokens_text (v : Version) : Tokens v.text v.written := by
  have pieces : Pieces '.' v.text.toList v.written := by
    refine ⟨by simp [written, parts], fun w hw hdot => ?_, v.toList_text.symm⟩
    exact absurd (isDigit_of_written hw '.' hdot) (by decide)
  refine ⟨v.text.toList, trims_of_solid fun c hc => ?_, pieces⟩
  rcases pieces.mem hc with rfl | ⟨w, hw, hcw⟩
  · rfl
  · exact Text.isBlank_of_isDigit (isDigit_of_written hw c hcw)

lemma leads_written (v : Version) : Leads v.written v.written := by
  refine ⟨List.prefix_refl v.written, fun w hw => ?_, fun other begins _ => ?_⟩
  · obtain ⟨part, -, rfl⟩ := List.mem_map.mp hw
    exact ⟨_, part_toString part⟩
  · exact begins.length_le.trans (List.length_take_le _ _)

lemma takes_written (v : Version) : v.Takes v.written := by
  refine ⟨fun k w hw => ?_, fun k hk hfour => absurd hfour (Nat.not_lt.mpr hk)⟩
  rw [written, List.getElem?_map, Option.map_eq_some_iff] at hw
  obtain ⟨part, hpart, rfl⟩ := hw
  exact ⟨part, hpart, part_toString part⟩

/-- A version is read as itself. -/
lemma ofText?_text (v : Version) : ofText? v.text = some v :=
  (ofText?_eq_some_iff v.tokens_text).mpr
    ⟨v.written, by simp [written, parts], v.leads_written, v.takes_written⟩

end Version

/-! ### The table of targets -/

/-- Every target stands in the table once, under its number and in the order of the numbers, with
this version. -/
structure ListsTargets (table : List TargetDescriptor) (v : Version) : Prop where
  once : ∀ t, (table.map (·.target)).count t = 1
  ordered : (table.map (·.number)).Pairwise (· < ·)
  numbers : table.map (fun d => (d.number, d.target)) = [(0, .system), (1, .manifest)]
  versions : ∀ d ∈ table, d.version = v
  /-- the rest is what is known of the target -/
  own : ∀ d ∈ table, d = d.target.descriptor v

lemma lists_all (v : Version) : ListsTargets (Target.all.map (·.descriptor v)) v where
  once t := by cases t <;> rfl
  ordered := by simp [Target.all, Target.descriptor, Target.number]
  numbers := rfl
  versions := by simp [Target.descriptor]
  own := by simp [Target.descriptor]

lemma firmwareTargets_eq_none_iff {text : String} :
    firmwareTargets text = none ↔ Version.ofText? text = none :=
  Option.map_eq_none_iff

lemma lists_of_firmwareTargets {text : String} {table : List TargetDescriptor}
    (h : firmwareTargets text = some table) :
    ∃ v, Version.ofText? text = some v ∧ ListsTargets table v := by
  obtain ⟨v, hv, rfl⟩ := Option.map_eq_some_iff.mp h
  exact ⟨v, hv, lists_all v⟩

namespace Version

/-- A text is read by the longest run of parts at its start, whatever comes behind four tokens, a
version is written so that it is read as itself, and the table of targets goes by the version. -/
theorem version_read_by_leading_parts :
    (∀ text, ∃ tokens, Tokens text tokens) ∧
    (∀ text tokens, Tokens text tokens →
      (ofText? text = none ↔ ∀ token, tokens.head? = some token → ¬ ∃ n, Part token n) ∧
      ∀ v, ofText? text = some v ↔ ∃ run, run ≠ [] ∧ Leads tokens run ∧ v.Takes run) ∧
    (∀ text text' tokens tokens', Tokens text tokens → Tokens text' tokens' →
      tokens.take 4 = tokens'.take 4 → ofText? text = ofText? text') ∧
    (∀ v : Version, ofText? v.text = some v) ∧
    (∀ text, (ofText? text).bind (fun v => ofText? v.text) = ofText? text) ∧
    ∀ text, (firmwareTargets text = none ↔ ofText? text = none) ∧
      ∀ table, firmwareTargets text = some table →
        ∃ v, ofText? text = some v ∧ ListsTargets table v := by
  refine ⟨exists_tokens, fun text tokens h => ⟨ofText?_eq_none_iff h, fun v => ?_⟩,
    fun text text' tokens tokens' h h' same => ofText?_congr h h' same, ofText?_text,
    fun text => ?_, fun text => ⟨firmwareTargets_eq_none_iff, fun table => ?_⟩⟩
  · exact ofText?_eq_some_iff h
  · cases h : ofText? text with
    | none => rfl
    | some v => rw [Option.bind_some, ofText?_text]
  · exact lists_of_firmwareTargets

/-- A sign, blanks and a leading zero are no obstacle, a third token that is too large ends the run,
and a fifth one that is no number changes nothing. -/
theorem odd_text_gives_version :
    let text := " +7. 012 .256.9.x\t"
    let tokens := ["+7", " 012 ", "256", "9", "x"].map (·.toList)
    Tokens text tokens ∧ Leads tokens (tokens.take 2) ∧ ofText? text = some ⟨7, 12, 0, 0⟩ ∧
      ofText? "+7. 012 .256.9" = some ⟨7, 12, 0, 0⟩ := by
  intro text tokens
  have htokens : Tokens text tokens := by
    have hsplit : Text.splitWhere (· == '.') (Text.trim text.toList) = tokens := by decide +kernel
    exact hsplit ▸ ⟨_, Text.trims_trim _, Text.pieces_split '.' _⟩
  have hfewer : Tokens "+7. 012 .256.9" (tokens.take 4) := by
    have hsplit : Text.splitWhere (· == '.') (Text.trim "+7. 012 .256.9".toList) =
        tokens.take 4 := by decide +kernel
    exact hsplit ▸ ⟨_, Text.trims_trim _, Text.pieces_split '.' _⟩
  have hvalues : List.Forall₂ (fun token (value : UInt8) => Part token value.toNat)
      (tokens.take 2) [7, 12] :=
    .cons (part?_eq_some_iff.mp (by decide +kernel))
      (.cons (part?_eq_some_iff.mp (by decide +kernel)) .nil)
  have htooLarge : part? "256".toList = none := by decide +kernel
  have hleads : Leads tokens (tokens.take 2) := by
    have hrun : tokens.take 4 = tokens.take 2 ++ ["256".toList, "9".toList] := rfl
    refine leads_of_ends hrun hvalues ?_
    rintro _ ⟨⟩
    rw [part_iff, htooLarge]
    rintro ⟨value, ⟨⟩⟩
  obtain ⟨-, reads, same, -⟩ := version_read_by_leading_parts
  have hread := ((reads text tokens htokens).2 ⟨7, 12, 0, 0⟩).mpr
    ⟨_, by decide, hleads, takes_ofParts hvalues (by decide)⟩
  exact ⟨htokens, hleads, hread, (same _ _ _ _ hfewer htokens rfl).trans hread⟩

end Version

end DeviceUpdate
