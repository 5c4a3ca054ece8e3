import Mathlib.Data.List.Infix
import Mathlib.Data.List.Chain

/-!
# Pieces of a stream between delimiters

A reader keeps what it has not used, appends each chunk that arrives, and cuts off pieces at
the first delimiter as long as there is one. A delimiter that is found stays the first one
when more follows it (`cut_append`), so the pieces are those of the whole stream, however it is
cut into chunks (`feedAll_eq`). A stream of pieces that each end before their delimiter is
taken apart again (`pieces_flatMap`).

Lines without line breaks, joined by line breaks, make such a piece for the delimiter of two
line breaks (`endsBefore_lines`).
-/

set_option autoImplicit false

namespace EliteHubVault.Library

variable {α : Type*} [DecidableEq α]

/-! ## Cutting at the first delimiter -/

/-- What stands before the first delimiter, which is not empty, and what follows it. -/
def cut (delimiter : List α) : List α → Option (List α × List α)
  | [] => none
  | first :: text =>
      if delimiter <+: first :: text then some ([], (first :: text).drop delimiter.length)
      else (cut delimiter text).map fun parts => (first :: parts.1, parts.2)

/-- Cut off pieces as long as there is a delimiter; the first argument bounds their number. -/
def drain (delimiter : List α) : ℕ → List α → List (List α) × List α
  | 0, text => ([], text)
  | fuel + 1, text =>
      match cut delimiter text with
      | none => ([], text)
      | some (piece, rest) =>
          let drained := drain delimiter fuel rest
          (piece :: drained.1, drained.2)

/-- The pieces of a text, and what is left of it. -/
def pieces (delimiter text : List α) : List (List α) × List α :=
  drain delimiter text.length text

/-- A chunk arrives. -/
def feed (delimiter : List α) (state : List (List α) × List α) (chunk : List α) :
    List (List α) × List α :=
  let drained := pieces delimiter (state.2 ++ chunk)
  (state.1 ++ drained.1, drained.2)

variable {delimiter : List α}

theorem eq_of_cut {text piece rest : List α} (found : cut delimiter text = some (piece, rest)) :
    text = piece ++ (delimiter ++ rest) := by
  induction text generalizing piece with
  | nil => cases found
  | cons first text ih =>
      rw [cut] at found
      split at found
      · rename_i here
        obtain ⟨rfl, rfl⟩ := Prod.mk.inj (Option.some.inj found)
        exact (List.prefix_iff_eq_append.mp here).symm
      · obtain ⟨⟨before, after⟩, later, same⟩ := Option.map_eq_some_iff.mp found
        obtain ⟨rfl, rfl⟩ := Prod.mk.inj same
        exact congrArg (first :: ·) (ih later)

/-- **The first delimiter stays the first** when more follows. -/
theorem cut_append {text piece rest : List α} (found : cut delimiter text = some (piece, rest))
    (more : List α) : cut delimiter (text ++ more) = some (piece, rest ++ more) := by
  induction text generalizing piece with
  | nil => cases found
  | cons first text ih =>
      rw [cut] at found
      rw [List.cons_append, cut]
      split at found
      · rename_i here
        obtain ⟨rfl, rfl⟩ := Prod.mk.inj (Option.some.inj found)
        rw [← List.cons_append, if_pos (here.trans (List.prefix_append _ _)),
          List.drop_append_of_le_length here.length_le]
      · rename_i away
        obtain ⟨⟨before, after⟩, later, same⟩ := Option.map_eq_some_iff.mp found
        obtain ⟨rfl, rfl⟩ := Prod.mk.inj same
        -- the delimiter that was found lies within the text, so no earlier one can reach out of it
        have short : delimiter.length ≤ (first :: text).length := by
          have length := congrArg List.length (eq_of_cut later)
          simp only [List.length_append, List.length_cons] at length ⊢
          omega
        have still : ¬ delimiter <+: first :: (text ++ more) := fun here => away
          (List.prefix_of_prefix_length_le here (List.prefix_append (first :: text) more) short)
        rw [if_neg still, ih later]
        rfl

theorem length_of_cut (nonempty : delimiter ≠ []) {text piece rest : List α}
    (found : cut delimiter text = some (piece, rest)) : rest.length < text.length := by
  have length := congrArg List.length (eq_of_cut found)
  have positive := List.length_pos_iff.mpr nonempty
  simp only [List.length_append] at length
  omega

/-! ## Pieces of a text -/

theorem drain_eq_drain (nonempty : delimiter ≠ []) {fuel fuel' : ℕ} {text : List α}
    (enough : text.length ≤ fuel) (enough' : text.length ≤ fuel') :
    drain delimiter fuel text = drain delimiter fuel' text := by
  induction fuel generalizing text fuel' with
  | zero =>
      obtain rfl := List.length_eq_zero_iff.mp (Nat.le_zero.mp enough)
      cases fuel' <;> rfl
  | succ fuel ih =>
      cases fuel' with
      | zero =>
          obtain rfl := List.length_eq_zero_iff.mp (Nat.le_zero.mp enough')
          rfl
      | succ fuel' =>
          rw [drain, drain]
          cases found : cut delimiter text with
          | none => rfl
          | some parts =>
              have shorter := length_of_cut nonempty found
              have same : drain delimiter fuel parts.2 = drain delimiter fuel' parts.2 :=
                ih (by omega) (by omega)
              simp only [same]

theorem pieces_of_none {text : List α} (none : cut delimiter text = none) :
    pieces delimiter text = ([], text) := by
  unfold pieces
  cases text with
  | nil => rfl
  | cons first text => rw [List.length_cons, drain, none]

theorem pieces_of_cut (nonempty : delimiter ≠ []) {text piece rest : List α}
    (found : cut delimiter text = some (piece, rest)) :
    pieces delimiter text =
      (piece :: (pieces delimiter rest).1, (pieces delimiter rest).2) := by
  have shorter := length_of_cut nonempty found
  unfold pieces
  obtain ⟨fuel, size⟩ : ∃ fuel, text.length = fuel + 1 := ⟨text.length - 1, by omega⟩
  have same : drain delimiter fuel rest = drain delimiter rest.length rest :=
    drain_eq_drain nonempty (by omega) le_rfl
  rw [size, drain, found]
  simp only [same]

/-- The pieces of a text come first, then those of what is left of it and of what follows. -/
theorem pieces_append (nonempty : delimiter ≠ []) (text more : List α) :
    pieces delimiter (text ++ more) =
      ((pieces delimiter text).1 ++ (pieces delimiter ((pieces delimiter text).2 ++ more)).1,
        (pieces delimiter ((pieces delimiter text).2 ++ more)).2) := by
  induction size : text.length using Nat.strong_induction_on generalizing text with
  | _ size ih =>
      cases found : cut delimiter text with
      | none => rw [pieces_of_none found, List.nil_append]
      | some parts =>
          obtain ⟨piece, rest⟩ := parts
          have shorter := length_of_cut nonempty found
          rw [pieces_of_cut nonempty found, pieces_of_cut nonempty (cut_append found more),
            ih rest.length (size ▸ shorter) rest rfl, List.cons_append]

/-- **The pieces do not depend on how the stream is cut into chunks.** -/
theorem feedAll_eq (nonempty : delimiter ≠ []) (chunks : List (List α)) :
    chunks.foldl (feed delimiter) ([], []) = pieces delimiter chunks.flatten := by
  induction chunks using List.reverseRecOn with
  | nil => rfl
  | append_singleton chunks chunk ih =>
      rw [List.foldl_append, ih, List.flatten_append, List.flatten_singleton,
        pieces_append nonempty]
      rfl

/-! ## Texts that end before their delimiter -/

/-- Whatever follows the delimiter after the text, it is the first one. -/
def EndsBefore (delimiter text : List α) : Prop :=
  ∀ rest, cut delimiter (text ++ (delimiter ++ rest)) = some (text, rest)

/-- **A stream of pieces is taken apart again.** -/
theorem pieces_flatMap (nonempty : delimiter ≠ []) {texts : List (List α)}
    (ends : ∀ text ∈ texts, EndsBefore delimiter text) :
    pieces delimiter (texts.flatMap fun text => text ++ delimiter) = (texts, []) := by
  induction texts with
  | nil => rfl
  | cons text texts ih =>
      have found := ends text List.mem_cons_self (texts.flatMap fun text => text ++ delimiter)
      rw [List.flatMap_cons, List.append_assoc, pieces_of_cut nonempty found,
        ih fun other member => ends other (List.mem_cons_of_mem text member)]

/-! ## Lines -/

/-- A text without two line breaks in a row, also with the one after it, ends before two. -/
theorem endsBefore_of_isChain {lineBreak : α} {text : List α}
    (single : (text ++ [lineBreak]).IsChain fun first second =>
      ¬ (first = lineBreak ∧ second = lineBreak)) : EndsBefore [lineBreak, lineBreak] text := by
  intro rest
  induction text with
  | nil => simp [cut]
  | cons first text ih =>
      rw [List.cons_append] at single
      have later := ih (List.IsChain.of_cons single)
      have away : ¬ [lineBreak, lineBreak] <+:
          first :: (text ++ ([lineBreak, lineBreak] ++ rest)) := by
        intro here
        obtain ⟨same, here⟩ := List.cons_prefix_cons.mp here
        cases text with
        | nil => exact (List.isChain_cons_cons.mp single).1 ⟨same.symm, rfl⟩
        | cons second text =>
            obtain ⟨same', -⟩ := List.cons_prefix_cons.mp here
            exact (List.isChain_cons_cons.mp single).1 ⟨same.symm, same'.symm⟩
      rw [List.cons_append, cut, if_neg away, later]
      rfl

omit [DecidableEq α] in
/-- Lines that are not empty and have no line break have no two line breaks in a row when each
is ended by one. -/
theorem isChain_lines {lineBreak : α} {lines : List (List α)} (filled : ∀ line ∈ lines, line ≠ [])
    (whole : ∀ line ∈ lines, lineBreak ∉ line) :
    (lines.flatMap fun line => line ++ [lineBreak]).IsChain fun first second =>
      ¬ (first = lineBreak ∧ second = lineBreak) := by
  induction lines with
  | nil => exact .nil
  | cons line lines ih =>
      have unbroken : ∀ letter ∈ line, letter ≠ lineBreak := fun letter member same =>
        whole line List.mem_cons_self (same ▸ member)
      have later := ih (fun other member => filled other (List.mem_cons_of_mem line member))
        fun other member => whole other (List.mem_cons_of_mem line member)
      rw [List.flatMap_cons, List.append_assoc, List.singleton_append]
      refine List.isChain_append.mpr ⟨?_, ?_, fun letter last _ _ breaks => ?_⟩
      · have apart : line.Pairwise fun first second => ¬ (first = lineBreak ∧ second = lineBreak) :=
          List.pairwise_of_forall_mem_list fun letter member _ _ breaks =>
            unbroken letter member breaks.1
        exact apart.isChain
      · refine List.isChain_cons.mpr ⟨fun letter head breaks => ?_, later⟩
        cases lines with
        | nil => cases head
        | cons next lines =>
            obtain ⟨first, tail, rfl⟩ := List.exists_cons_of_ne_nil
              (filled next (List.mem_cons_of_mem line List.mem_cons_self))
            obtain rfl : first = letter := by simpa using head
            exact whole (first :: tail) (List.mem_cons_of_mem line List.mem_cons_self)
              (breaks.2 ▸ List.mem_cons_self)
      · exact unbroken letter (List.mem_of_getLast? last) breaks.1

omit [DecidableEq α] in
/-- Lines joined by line breaks, and a further line break. -/
theorem intercalate_append {lineBreak : α} {lines : List (List α)} (some_line : lines ≠ []) :
    [lineBreak].intercalate lines ++ [lineBreak] =
      lines.flatMap fun line => line ++ [lineBreak] := by
  induction lines with
  | nil => exact absurd rfl some_line
  | cons line lines ih =>
      cases lines with
      | nil => simp
      | cons next lines =>
          rw [List.flatMap_cons, ← ih (List.cons_ne_nil next lines), List.intercalate_cons_cons]
          simp

/-- **Lines that are not empty and have no line break end before two of them.** -/
theorem endsBefore_lines {lineBreak : α} {lines : List (List α)} (some_line : lines ≠ [])
    (filled : ∀ line ∈ lines, line ≠ [])
    (whole : ∀ line ∈ lines, lineBreak ∉ line) :
    EndsBefore [lineBreak, lineBreak] ([lineBreak].intercalate lines) := by
  refine endsBefore_of_isChain ?_
  rw [intercalate_append some_line]
  exact isChain_lines filled whole

end EliteHubVault.Library
