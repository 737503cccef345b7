import DeviceUpdate.Proofs.Path
import Mathlib.Data.List.DropRight
import Mathlib.Data.List.Forall2

/-!
# Parts of texts

A divider takes a text apart in one way only, and a line feed takes it apart into its rows. Trimming
takes the blanks at the two ends, all of them and nothing else. A text is cut at the first place
where that can be done.
-/

namespace DeviceUpdate.Text

/-! ### Trimming -/

/-- `line` is `raw` without the blanks at its two ends. -/
structure Trims (raw line : List Char) : Prop where
  parts : ∃ front back, raw = front ++ line ++ back ∧ (∀ c ∈ front, isBlank c) ∧
    ∀ c ∈ back, isBlank c
  first : ∀ c, line.head? = some c → isBlank c = false
  last : ∀ c, line.getLast? = some c → isBlank c = false

lemma trimStart_append {front : List Char} (blank : ∀ c ∈ front, isBlank c) (cs : List Char) :
    trimStart (front ++ cs) = trimStart cs :=
  List.dropWhile_append_of_pos blank

lemma trimEnd_append {back : List Char} (blank : ∀ c ∈ back, isBlank c) (cs : List Char) :
    trimEnd (cs ++ back) = trimEnd cs := by
  rw [trimEnd, trimEnd, List.reverse_append,
    List.dropWhile_append_of_pos fun c hc => blank c (List.mem_reverse.mp hc)]

lemma trimStart_of_head {cs : List Char} (first : ∀ c, cs.head? = some c → isBlank c = false) :
    trimStart cs = cs := by
  cases cs with
  | nil => rfl
  | cons c cs => exact List.dropWhile_cons_of_neg (by simp [first c rfl])

lemma trimEnd_of_getLast {cs : List Char} (last : ∀ c, cs.getLast? = some c → isBlank c = false) :
    trimEnd cs = cs := by
  rw [trimEnd, ← trimStart, trimStart_of_head, List.reverse_reverse]
  intro c hc
  exact last c (by rwa [← List.head?_reverse])

lemma Trims.trim_eq {raw line : List Char} (h : Trims raw line) : trim raw = line := by
  obtain ⟨front, back, rfl, hfront, hback⟩ := h.parts
  rw [trim, List.append_assoc, trimStart_append hfront]
  cases line with
  | nil =>
    -- all is blank, and goes at the first end
    have hnone : trimStart back = [] := by
      simpa [trimStart, List.dropWhile_eq_nil_iff] using hback
    rw [List.nil_append, hnone]
    rfl
  | cons c line =>
    rw [trimStart_of_head (by simpa using h.first c rfl), trimEnd_append hback,
      trimEnd_of_getLast h.last]

lemma trims_trim (raw : List Char) : Trims raw (trim raw) := by
  have hstart : raw = raw.takeWhile isBlank ++ trimStart raw :=
    (List.takeWhile_append_dropWhile).symm
  have hend : trimStart raw = trim raw ++ (trimStart raw).rtakeWhile isBlank :=
    (List.rdropWhile_append_rtakeWhile (p := isBlank)).symm
  refine ⟨⟨raw.takeWhile isBlank, (trimStart raw).rtakeWhile isBlank, ?_, ?_, ?_⟩, ?_, ?_⟩
  · rw [List.append_assoc, ← hend, ← hstart]
  · exact fun c hc => List.mem_takeWhile_imp hc
  · exact fun c hc => List.mem_rtakeWhile_imp hc
  · intro c hc
    -- the text trimmed at both ends begins as the text trimmed in front
    have hhead : (trimStart raw).head? = some c := by
      rw [hend, List.head?_append, hc, Option.some_or]
    have hnot := List.head?_dropWhile_not isBlank raw
    rw [trimStart] at hhead
    simpa [hhead] using hnot
  · intro c hc
    obtain ⟨front, hfront⟩ := List.getLast?_eq_some_iff.mp hc
    have hne : trim raw ≠ [] := by simp [hfront]
    have hnot : ¬ isBlank ((trim raw).getLast hne) :=
      List.rdropWhile_last_not isBlank (trimStart raw) hne
    simpa [hfront] using hnot

lemma Trims.blank_append {raw line front : List Char} (h : Trims raw line)
    (blank : ∀ c ∈ front, isBlank c) : Trims (front ++ raw) line := by
  obtain ⟨before, back, rfl, hbefore, hback⟩ := h.parts
  refine ⟨⟨front ++ before, back, by simp, fun c hc => ?_, hback⟩, h.first, h.last⟩
  exact (List.mem_append.mp hc).elim (blank c) (hbefore c)

lemma Trims.append_blank {raw line back : List Char} (h : Trims raw line)
    (blank : ∀ c ∈ back, isBlank c) : Trims (raw ++ back) line := by
  obtain ⟨front, behind, rfl, hfront, hbehind⟩ := h.parts
  refine ⟨⟨front, behind ++ back, by simp, hfront, fun c hc => ?_⟩, h.first, h.last⟩
  exact (List.mem_append.mp hc).elim (hbehind c) (blank c)

/-- Nothing is left of blanks, and of blanks only. -/
lemma trim_eq_nil_iff {raw : List Char} : trim raw = [] ↔ ∀ c ∈ raw, isBlank c := by
  constructor
  · intro h
    obtain ⟨front, back, hraw, hfront, hback⟩ := (trims_trim raw).parts
    rw [h, List.append_nil] at hraw
    rw [hraw]
    exact fun c hc => (List.mem_append.mp hc).elim (hfront c) (hback c)
  · intro h
    have hempty : Trims [] [] := ⟨⟨[], [], by simp⟩, by simp, by simp⟩
    simpa using (hempty.blank_append h).trim_eq

/-- A carriage return at the end of a row is a blank there. -/
lemma trim_dropReturn (row : List Char) : trim (dropReturn row) = trim row := by
  unfold dropReturn
  split
  · rename_i hlast
    obtain ⟨front, rfl⟩ := List.getLast?_eq_some_iff.mp hlast
    rw [List.dropLast_concat]
    exact ((trims_trim front).append_blank (by simp [isBlank])).trim_eq.symm
  · rfl

/-! ### Pieces -/

/-- The pieces are what stands between the dividers of the text. -/
structure Pieces (divider : Char) (text : List Char) (pieces : List (List Char)) : Prop where
  nonempty : pieces ≠ []
  single : ∀ piece ∈ pieces, divider ∉ piece
  joined : List.intercalate [divider] pieces = text

section Pieces

variable {divider : Char} {text : List Char} {pieces : List (List Char)}

lemma Pieces.split_eq (h : Pieces divider text pieces) :
    splitWhere (· == divider) text = pieces := by
  obtain ⟨nonempty, single, rfl⟩ := h
  induction pieces with
  | nil => exact absurd rfl nonempty
  | cons piece pieces ih =>
    obtain ⟨hpiece, hpieces⟩ := List.forall_mem_cons.mp single
    cases pieces with
    | nil => rw [List.intercalate_singleton, splitWhere_of_not_mem hpiece]
    | cons second pieces =>
      rw [List.intercalate_cons_cons, List.append_assoc, List.singleton_append,
        splitWhere_append (p := (· == divider)) (beq_self_eq_true divider),
        splitWhere_of_not_mem hpiece, ih (by simp) hpieces]
      rfl

lemma pieces_split (divider : Char) (text : List Char) :
    Pieces divider text (splitWhere (· == divider) text) := by
  induction text with
  | nil => exact ⟨by simp [splitWhere_nil], by simp [splitWhere_nil], rfl⟩
  | cons c text ih =>
    have hsplit := splitWhere_cons (· == divider) c text
    obtain ⟨nonempty, single, joined⟩ := ih
    obtain ⟨piece, others, hpieces⟩ := List.exists_cons_of_ne_nil nonempty
    rw [hpieces] at hsplit single joined
    by_cases divides : c = divider
    · subst divides
      simp only [beq_self_eq_true, if_true] at hsplit
      rw [hsplit]
      refine ⟨by simp, by simpa using single, ?_⟩
      rw [List.intercalate_cons_cons, joined]
      rfl
    · simp only [beq_iff_eq, divides, if_false, consFirst] at hsplit
      rw [hsplit]
      obtain ⟨hpiece, hothers⟩ := List.forall_mem_cons.mp single
      refine ⟨by simp, List.forall_mem_cons.mpr ⟨by simp [Ne.symm divides, hpiece], hothers⟩, ?_⟩
      rw [← joined]
      cases others with
      | nil => simp
      | cons second others => simp [List.intercalate_cons_cons]

lemma Pieces.mem {c : Char} (h : Pieces divider text pieces) (hc : c ∈ text) :
    c = divider ∨ ∃ piece ∈ pieces, c ∈ piece := by
  obtain ⟨-, -, rfl⟩ := h
  induction pieces with
  | nil => simp at hc
  | cons piece pieces ih =>
    cases pieces with
    | nil => exact .inr ⟨piece, List.mem_singleton_self _, by simpa using hc⟩
    | cons second pieces =>
      rw [List.intercalate_cons_cons, List.append_assoc, List.singleton_append, List.mem_append,
        List.mem_cons] at hc
      rcases hc with hc | rfl | hc
      · exact .inr ⟨piece, List.mem_cons_self, hc⟩
      · exact .inl rfl
      · exact (ih hc).imp_right fun ⟨w, hw, hcw⟩ => ⟨w, List.mem_cons_of_mem _ hw, hcw⟩

end Pieces

/-! ### Rows -/

/-- The rows are what stands between the line feeds of the text. -/
structure Rows (text : List Char) (rows : List (List Char)) : Prop where
  nonempty : rows ≠ []
  single : ∀ row ∈ rows, '\n' ∉ row
  joined : List.intercalate ['\n'] rows = text

/-- The pieces between the line feeds. -/
def rows (text : List Char) : List (List Char) := splitWhere (· == '\n') text

lemma rows_of_not_mem {row : List Char} (h : '\n' ∉ row) : rows row = [row] :=
  splitWhere_of_not_mem h

lemma rows_append (a b : List Char) : rows (a ++ '\n' :: b) = rows a ++ rows b :=
  splitWhere_append rfl a b

lemma Rows.rows_eq {text : List Char} {pieces : List (List Char)} (h : Rows text pieces) :
    rows text = pieces :=
  Pieces.split_eq ⟨h.nonempty, h.single, h.joined⟩

lemma rows_rows (text : List Char) : Rows text (rows text) :=
  have h := pieces_split '\n' text
  ⟨h.nonempty, h.single, h.joined⟩

/-- The lines of a text are its rows, without a last one that is empty, and without the carriage
returns in front of line feeds. -/
lemma lines_eq (text : List Char) : ∃ front last, rows text = front ++ [last] ∧
    lines text = front.map dropReturn ++ if last.isEmpty then [] else [last] := by
  obtain ⟨front, last, hrows⟩ := (rows text).eq_nil_or_concat.resolve_left (rows_rows text).nonempty
  rw [List.concat_eq_append] at hrows
  refine ⟨front, last, hrows, ?_⟩
  have hsplit : splitWhere (· == '\n') text = front ++ [last] := hrows
  simp [lines, hsplit]

/-- To search the lines is to search the rows, if a carriage return at the end makes no difference
and an empty row is not what is searched for. -/
lemma exists_line_iff {P : List Char → Prop} (carriage : ∀ row, P (dropReturn row) ↔ P row)
    (empty : ¬ P []) (text : List Char) :
    (∃ line ∈ lines text, P line) ↔ ∃ row ∈ rows text, P row := by
  obtain ⟨front, last, hrows, hlines⟩ := lines_eq text
  simp only [hrows, hlines, List.mem_append, List.mem_map, List.mem_singleton, or_and_right,
    exists_or, exists_eq_left, exists_exists_and_eq_and, carriage]
  refine or_congr_right ?_
  cases last with
  | nil => simp [empty]
  | cons c last => simp

/-! ### Cutting and searching -/

theorem cut?_eq_some_iff {c : Char} {cs front back : List Char} :
    cut? c cs = some (front, back) ↔ cs = front ++ c :: back ∧ c ∉ front := by
  induction cs generalizing front with
  | nil => simp [cut?]
  | cons d cs ih =>
    rw [cut?]
    by_cases here : d = c
    · subst here
      cases front with
      | nil => simp [eq_comm]
      | cons e front =>
        simp only [if_true, Option.some.injEq, Prod.mk.injEq, List.nil_eq, reduceCtorEq,
          false_and, List.cons_append, List.cons.injEq, List.mem_cons, not_or, false_iff]
        rintro ⟨⟨rfl, -⟩, hne, -⟩
        exact hne rfl
    · cases front with
      | nil => simp [here]
      | cons e front =>
        simp only [here, if_false, Option.map_eq_some_iff, Prod.exists, Prod.mk.injEq,
          List.cons.injEq, List.cons_append, List.mem_cons, not_or]
        constructor
        · rintro ⟨a, b, hcut, ⟨rfl, rfl⟩, rfl⟩
          obtain ⟨rfl, hnot⟩ := ih.mp hcut
          exact ⟨⟨rfl, rfl⟩, Ne.symm here, hnot⟩
        · rintro ⟨⟨rfl, rfl⟩, -, hnot⟩
          exact ⟨front, back, ih.mpr ⟨rfl, hnot⟩, ⟨rfl, rfl⟩, rfl⟩

lemma cut?_eq_none_iff {c : Char} {cs : List Char} : cut? c cs = none ↔ c ∉ cs := by
  induction cs with
  | nil => simp [cut?]
  | cons d cs ih =>
    rw [cut?]
    by_cases here : d = c
    · simp [here]
    · simp [here, ih, Ne.symm here]

lemma contains_iff {needle cs : List Char} : contains needle cs ↔ needle <:+: cs := by
  induction cs with
  | nil => simp [contains]
  | cons c cs ih => simp [contains, ih, List.infix_cons_iff]

/-- A character that the needle does not have divides the text for the search. -/
lemma infix_append_cons_iff {c : Char} {needle : List Char} (absent : c ∉ needle)
    (a b : List Char) : needle <:+: a ++ c :: b ↔ needle <:+: a ∨ needle <:+: b := by
  constructor
  · intro h
    obtain before | behind | ⟨front, back, rfl, hfront, hback⟩ := List.infix_append_iff.mp h
    · exact .inl before
    · obtain first | later := List.infix_cons_iff.mp behind
      · obtain rfl | ⟨rest, rfl, -⟩ := List.prefix_cons_iff.mp first
        · exact .inl List.nil_infix
        · exact absurd List.mem_cons_self absent
      · exact .inr later
    · obtain rfl | ⟨rest, rfl, -⟩ := List.prefix_cons_iff.mp hback
      · rw [List.append_nil]
        exact .inl hfront.isInfix
      · exact absurd (by simp) absent
  · rintro (before | behind)
    · exact before.trans (List.prefix_append a _).isInfix
    · exact behind.trans ((List.suffix_cons c b).trans (List.suffix_append a _)).isInfix

/-- What has no line feed stands in a text if it stands in one of its rows. -/
lemma Rows.infix_iff {needle text : List Char} {pieces : List (List Char)} (h : Rows text pieces)
    (single : '\n' ∉ needle) : needle <:+: text ↔ ∃ row ∈ pieces, needle <:+: row := by
  obtain ⟨nonempty, -, rfl⟩ := h
  induction pieces with
  | nil => exact absurd rfl nonempty
  | cons row pieces ih =>
    cases pieces with
    | nil => simp
    | cons second pieces =>
      rw [List.intercalate_cons_cons, List.append_assoc, List.singleton_append,
        infix_append_cons_iff single, ih (by simp)]
      simp

/-- What has no carriage return is not lost with one at the end. -/
lemma infix_dropReturn_iff {needle : List Char} (absent : '\r' ∉ needle) (row : List Char) :
    needle <:+: dropReturn row ↔ needle <:+: row := by
  unfold dropReturn
  split
  · rename_i hlast
    obtain ⟨front, rfl⟩ := List.getLast?_eq_some_iff.mp hlast
    rw [List.dropLast_concat, infix_append_cons_iff absent, List.infix_nil]
    constructor
    · exact .inl
    · rintro (h | rfl)
      · exact h
      · exact List.nil_infix
  · rfl

/-- A needle without line ends stands in the text if it stands in one of its lines. -/
theorem infix_iff_line {needle : List Char} (nonempty : needle ≠ []) (feed : '\n' ∉ needle)
    (carriage : '\r' ∉ needle) (text : List Char) :
    needle <:+: text ↔ ∃ line ∈ lines text, needle <:+: line := by
  rw [(rows_rows text).infix_iff feed]
  exact (exists_line_iff (infix_dropReturn_iff carriage) (by simp [nonempty]) text).symm

end DeviceUpdate.Text
