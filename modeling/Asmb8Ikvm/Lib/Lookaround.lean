import Asmb8Ikvm.Lib.Regex

/-!
# Expressions between lookarounds

Patterns of the form `(?<![...])body(?!...)` and the substitution of their
matches by a function that keeps a state. The ways to match a body are given by
their lengths, in the order in which a backtracking search tries them.

A body reads characters of some set only. What it matches depends on the text up
to the first character outside this set, and so does what a lookahead refuses.
-/

namespace Lookaround

open Regex

/-- Bodies: a character of a set, and groups that are repeated at least so many times and so
many times more at most, as often as possible. -/
inductive Body where
  | one (set : Char → Bool)
  | seq (first second : Body)
  | alt (first second : Body)
  | rep (least : ℕ) (extra : Option ℕ) (inner : Body)

namespace Body

/-- `inner{n}`. -/
def exactly (n : ℕ) (inner : Body) : Body := .rep n (some 0) inner

/-- `inner{least,most}`. -/
def between (least most : ℕ) (inner : Body) : Body := .rep least (some (most - least)) inner

/-- `inner{least,}`. -/
def atLeast (least : ℕ) (inner : Body) : Body := .rep least none inner

/-- One character. -/
def lit (c : Char) : Body := .one (· == c)

/-- Bodies one after the other. -/
def chain (first : Body) : List Body → Body
  | [] => first
  | next :: others => .seq first (chain next others)

/-- One of several bodies, tried in order. -/
def oneOf (first : Body) : List Body → Body
  | [] => first
  | next :: others => .alt first (oneOf next others)

end Body

variable {α β : Type} [Glyph α] [Glyph β]

/-- The lengths of up to `extra` rounds, more rounds first; a round that matches nothing is
the last one. -/
def optional (step : List α → List ℕ) : ℕ → List α → List ℕ
  | 0, _ => [0]
  | extra + 1, text =>
      ((step text).filter (0 < ·)).flatMap
        (fun n => (optional step extra (text.drop n)).map (n + ·)) ++ [0]

/-- The lengths of `least` rounds and up to `extra` more. -/
def rounds (step : List α → List ℕ) (extra : ℕ) : ℕ → List α → List ℕ
  | 0, text => optional step extra text
  | least + 1, text =>
      (step text).flatMap fun n => (rounds step extra least (text.drop n)).map (n + ·)

/-- The lengths of the ways to match a body at the start of a text, in the order they are
tried. -/
def lengths : Body → List α → List ℕ
  | .one _, [] => []
  | .one set, glyph :: _ => if set (char glyph) then [1] else []
  | .seq first second, text =>
      (lengths first text).flatMap fun n => (lengths second (text.drop n)).map (n + ·)
  | .alt first second, text => lengths first text ++ lengths second text
  | .rep least extra inner, text => rounds (lengths inner) (extra.getD text.length) least text

/-- `(?<![notAfter])body(?!notBefore)`. -/
structure Pattern where
  notAfter : Char → Bool
  body : Body
  notBefore : Body

/-- The length of the match at a place. -/
def matchLength (pattern : Pattern) (prev : Option Char) (text : List α) : Option ℕ :=
  if prev.any pattern.notAfter then none
  else (lengths pattern.body text).find? fun n => (lengths pattern.notBefore (text.drop n)).isEmpty

/-- `pattern.sub(replace, text)` from a place on, where the next `skip` glyphs belong to a match
that has been replaced. An empty match is passed over. -/
def subFrom {σ : Type} (pattern : Pattern) (replace : List α → σ → List α × σ) :
    Option Char → ℕ → List α → σ → List α × σ
  | _, _, [], state => ([], state)
  | _, skip + 1, glyph :: rest, state =>
      subFrom pattern replace (some (char glyph)) skip rest state
  | prev, 0, glyph :: rest, state =>
      match matchLength pattern prev (glyph :: rest) with
      | some (n + 1) =>
          let replaced := replace (glyph :: rest.take n) state
          let later := subFrom pattern replace (some (char glyph)) n rest replaced.2
          (replaced.1 ++ later.1, later.2)
      | _ =>
          let later := subFrom pattern replace (some (char glyph)) 0 rest state
          (glyph :: later.1, later.2)

/-- `pattern.sub(replace, text)`. -/
def sub {σ : Type} (pattern : Pattern) (replace : List α → σ → List α × σ) (text : List α)
    (state : σ) : List α × σ :=
  subFrom pattern replace none 0 text state

section Language

/-- The words of up to `extra` rounds. -/
def Optional (P : List Char → Prop) : ℕ → List Char → Prop
  | 0, word => word = []
  | extra + 1, word => word = [] ∨
      ∃ left right, word = left ++ right ∧ left ≠ [] ∧ P left ∧ Optional P extra right

/-- The words of `least` rounds and up to `extra` more. -/
def Rounds (P : List Char → Prop) (extra : ℕ) : ℕ → List Char → Prop
  | 0, word => Optional P extra word
  | least + 1, word => ∃ left right, word = left ++ right ∧ P left ∧ Rounds P extra least right

/-- The words of a body. -/
def Spells : Body → List Char → Prop
  | .one set, word => ∃ c, word = [c] ∧ set c = true
  | .seq first second, word =>
      ∃ left right, word = left ++ right ∧ Spells first left ∧ Spells second right
  | .alt first second, word => Spells first word ∨ Spells second word
  | .rep least extra inner, word => Rounds (Spells inner) (extra.getD word.length) least word

variable {P : List Char → Prop} {word : List Char}

theorem optional_nil (extra : ℕ) : Optional P extra [] := by
  cases extra with
  | zero => rfl
  | succ extra => exact .inl rfl

/-- Rounds that match something are no more than the characters of the word. -/
theorem Optional.of_length {extra extra' : ℕ} (spelled : Optional P extra word)
    (enough : word.length ≤ extra') : Optional P extra' word := by
  induction extra generalizing extra' word with
  | zero =>
      cases spelled
      exact optional_nil extra'
  | succ extra ih =>
      rcases spelled with rfl | ⟨left, right, rfl, nonempty, spelledLeft, spelledRight⟩
      · exact optional_nil extra'
      · have positive := List.length_pos_iff.mpr nonempty
        rw [List.length_append] at enough
        cases extra' with
        | zero => omega
        | succ extra' =>
            exact .inr ⟨left, right, rfl, nonempty, spelledLeft, ih spelledRight (by omega)⟩

theorem Rounds.of_length {extra extra' least : ℕ} (spelled : Rounds P extra least word)
    (enough : word.length ≤ extra') : Rounds P extra' least word := by
  induction least generalizing word with
  | zero => exact Optional.of_length spelled enough
  | succ least ih =>
      rcases spelled with ⟨left, right, rfl, spelledLeft, spelledRight⟩
      rw [List.length_append] at enough
      exact ⟨left, right, rfl, spelledLeft, ih spelledRight (by omega)⟩

/-- A list of lengths is that of the ways to match words of `P`. -/
def ListsLengths (step : List α → List ℕ) (P : List Char → Prop) : Prop :=
  ∀ text n, n ∈ step text ↔ n ≤ text.length ∧ P ((text.take n).map char)

variable {step : List α → List ℕ}

/-- A way that is continued behind its first part. -/
theorem mem_continued_iff {later : List α → List ℕ} {Q : List Char → Prop}
    (first : ListsLengths step P) (second : ListsLengths later Q) (text : List α) (n : ℕ) :
    (n ∈ (step text).flatMap fun n => (later (text.drop n)).map (n + ·)) ↔
      n ≤ text.length ∧
        ∃ left right, (text.take n).map char = left ++ right ∧ P left ∧ Q right := by
  simp only [List.mem_flatMap, List.mem_map]
  constructor
  · rintro ⟨i, mem, j, mem', rfl⟩
    rcases (first text i).mp mem with ⟨short, spelled⟩
    rcases (second _ j).mp mem' with ⟨short', spelled'⟩
    rw [List.length_drop] at short'
    refine ⟨by omega, _, _, ?_, spelled, spelled'⟩
    rw [← List.map_append, ← List.take_add]
  · rintro ⟨short, left, right, split, spelled, spelled'⟩
    have total : left.length + right.length = n := by
      rw [← List.length_append, ← split, List.length_map, List.length_take]
      omega
    have takeLeft : (text.take left.length).map char = left := by
      have front := congrArg (List.take left.length) split
      rwa [List.take_left, ← List.map_take, List.take_take, min_eq_left (by omega)] at front
    have takeRight : ((text.drop left.length).take right.length).map char = right := by
      have back := congrArg (List.drop left.length) split
      rw [List.drop_left, ← List.map_drop, ← total, List.drop_take] at back
      rwa [Nat.add_sub_cancel_left] at back
    refine ⟨left.length, (first text _).mpr ⟨by omega, ?_⟩, right.length,
      (second _ _).mpr ⟨?_, ?_⟩, total⟩
    · rwa [takeLeft]
    · rw [List.length_drop]
      omega
    · rwa [takeRight]

theorem listsLengths_optional (lists : ListsLengths step P) (extra : ℕ) :
    ListsLengths (optional step extra) (Optional P extra) := by
  induction extra with
  | zero =>
      intro text n
      simp only [optional, Optional, List.mem_singleton, List.map_eq_nil_iff, List.take_eq_nil_iff]
      constructor
      · rintro rfl
        simp
      · rintro ⟨short, rfl | rfl⟩
        · rfl
        · simpa using short
  | succ extra ih =>
      intro text n
      have nonempty : ListsLengths (fun text => (step text).filter (0 < ·))
          fun word => word ≠ [] ∧ P word := by
        intro text n
        simp only [List.mem_filter, lists text n, decide_eq_true_eq, ne_eq, List.map_eq_nil_iff,
          List.take_eq_nil_iff, not_or]
        constructor
        · rintro ⟨⟨short, spelled⟩, positive⟩
          refine ⟨short, ⟨by omega, ?_⟩, spelled⟩
          rintro rfl
          simp at short
          omega
        · rintro ⟨short, ⟨nonzero, -⟩, spelled⟩
          exact ⟨⟨short, spelled⟩, Nat.pos_of_ne_zero nonzero⟩
      rw [optional, List.mem_append, mem_continued_iff nonempty ih, List.mem_singleton, Optional]
      constructor
      · rintro (⟨short, left, right, split, ⟨nonempty', spelled⟩, rest⟩ | rfl)
        · exact ⟨short, .inr ⟨left, right, split, nonempty', spelled, rest⟩⟩
        · exact ⟨Nat.zero_le _, .inl (by simp)⟩
      · rintro ⟨short, empty | ⟨left, right, split, nonempty', spelled, rest⟩⟩
        · rw [List.map_eq_nil_iff, List.take_eq_nil_iff] at empty
          rcases empty with rfl | rfl
          · exact .inr rfl
          · right
            simpa using short
        · exact .inl ⟨short, left, right, split, ⟨nonempty', spelled⟩, rest⟩

theorem listsLengths_rounds (lists : ListsLengths step P) (extra least : ℕ) :
    ListsLengths (rounds step extra least) (Rounds P extra least) := by
  induction least with
  | zero => exact listsLengths_optional lists extra
  | succ least ih =>
      intro text n
      rw [rounds]
      exact mem_continued_iff lists ih text n

/-- `lengths` lists the ways of matching. -/
theorem listsLengths_lengths (body : Body) :
    ListsLengths (lengths body : List α → List ℕ) (Spells body) := by
  induction body with
  | one set =>
      intro text n
      cases text with
      | nil => simp [lengths, Spells]
      | cons glyph rest =>
          simp only [lengths, Spells]
          by_cases inSet : set (char glyph) = true
          · simp only [inSet, if_true, List.mem_singleton, List.length_cons]
            constructor
            · rintro rfl
              exact ⟨by omega, char glyph, by simp, inSet⟩
            · rintro ⟨short, c, spelled, -⟩
              have size := congrArg List.length spelled
              rw [List.length_map, List.length_take, List.length_cons,
                List.length_singleton] at size
              omega
          · rw [if_neg inSet]
            simp only [List.not_mem_nil, false_iff]
            rintro ⟨-, c, spelled, inSet'⟩
            rcases n with _ | n
            · simp at spelled
            · rw [List.take_succ_cons, List.map_cons, List.cons.injEq] at spelled
              rw [spelled.1] at inSet
              exact inSet inSet'
  | seq first second ihFirst ihSecond =>
      intro text n
      rw [lengths]
      exact mem_continued_iff ihFirst ihSecond text n
  | alt first second ihFirst ihSecond =>
      intro text n
      rw [lengths, List.mem_append, ihFirst, ihSecond, Spells, ← and_or_left]
  | rep least extra inner ih =>
      intro text n
      rw [lengths, Spells, listsLengths_rounds ih]
      refine and_congr_right fun short => ?_
      have size : ((text.take n).map char).length = n := by
        rw [List.length_map, List.length_take]
        omega
      cases extra with
      | some extra => rfl
      | none =>
          rw [Option.getD_none, Option.getD_none]
          constructor
          · intro spelled
            exact spelled.of_length le_rfl
          · intro spelled
            refine spelled.of_length ?_
            omega

end Language

section Words

variable {word : List Char}

/-- Every character the body reads is in the set. -/
def Body.Within (set : Char → Bool) : Body → Prop
  | .one inner => ∀ c, inner c = true → set c = true
  | .seq first second => first.Within set ∧ second.Within set
  | .alt first second => first.Within set ∧ second.Within set
  | .rep _ _ inner => inner.Within set

/-- No word has the character. -/
def Body.avoids : Body → Char → Bool
  | .one set, c => !set c
  | .seq first second, c => first.avoids c && second.avoids c
  | .alt first second, c => first.avoids c && second.avoids c
  | .rep _ _ inner, c => inner.avoids c

/-- How many characters outside the list every word has at least. -/
def Body.outside (chars : List Char) : Body → ℕ
  | .one set => if chars.any set then 0 else 1
  | .seq first second => first.outside chars + second.outside chars
  | .alt first second => min (first.outside chars) (second.outside chars)
  | .rep least _ inner => least * inner.outside chars

/-- The characters a word may begin with. -/
def Body.first : Body → Char → Bool
  | .one set, c => set c
  | .seq first second, c => first.first c || (first.outside [] == 0 && second.first c)
  | .alt first second, c => first.first c || second.first c
  | .rep _ _ inner, c => inner.first c

/-- The characters a word may end with. -/
def Body.last : Body → Char → Bool
  | .one set, c => set c
  | .seq first second, c => second.last c || (second.outside [] == 0 && first.last c)
  | .alt first second, c => first.last c || second.last c
  | .rep _ _ inner, c => inner.last c

/-- What holds of the words of rounds when each round keeps it. -/
theorem Rounds.induction {P : List Char → Prop} {extra least : ℕ} (Q : List Char → Prop)
    (nil : Q [])
    (append : ∀ left right, P left → Q right → Q (left ++ right))
    (spelled : Rounds P extra least word) : Q word := by
  induction least generalizing word with
  | zero =>
      induction extra generalizing word with
      | zero =>
          cases spelled
          exact nil
      | succ extra ih =>
          rcases spelled with rfl | ⟨left, right, rfl, -, spelledLeft, spelledRight⟩
          · exact nil
          · exact append left right spelledLeft (ih spelledRight)
  | succ least ih =>
      rcases spelled with ⟨left, right, rfl, spelledLeft, spelledRight⟩
      exact append left right spelledLeft (ih spelledRight)

theorem Body.Within.mem {body : Body} {set : Char → Bool} (within : body.Within set)
    (spelled : Spells body word) : ∀ c ∈ word, set c = true := by
  induction body generalizing word with
  | one inner =>
      rcases spelled with ⟨c, rfl, inSet⟩
      intro d mem
      rw [List.mem_singleton.mp mem]
      exact within c inSet
  | seq first second ihFirst ihSecond =>
      rcases spelled with ⟨left, right, rfl, spelledLeft, spelledRight⟩
      intro c mem
      rcases List.mem_append.mp mem with mem | mem
      · exact ihFirst within.1 spelledLeft c mem
      · exact ihSecond within.2 spelledRight c mem
  | alt first second ihFirst ihSecond =>
      rcases spelled with spelled | spelled
      · exact ihFirst within.1 spelled
      · exact ihSecond within.2 spelled
  | rep least extra inner ih =>
      refine Rounds.induction (fun word => ∀ c ∈ word, set c = true) (by simp) ?_ spelled
      intro left right spelledLeft kept c mem
      rcases List.mem_append.mp mem with mem | mem
      · exact ih within spelledLeft c mem
      · exact kept c mem

theorem Body.within_of_avoids {body : Body} {set : Char → Bool} {excluded : List Char}
    (others : ∀ c, c ∉ excluded → set c = true)
    (avoids : ∀ c ∈ excluded, body.avoids c = true) : body.Within set := by
  induction body with
  | one inner =>
      intro c inSet
      refine others c fun mem => ?_
      have refused := avoids c mem
      rw [Body.avoids, inSet] at refused
      cases refused
  | seq first second ihFirst ihSecond =>
      refine ⟨ihFirst fun c mem => ?_, ihSecond fun c mem => ?_⟩
      · exact (Bool.and_eq_true_iff.mp (avoids c mem)).1
      · exact (Bool.and_eq_true_iff.mp (avoids c mem)).2
  | alt first second ihFirst ihSecond =>
      refine ⟨ihFirst fun c mem => ?_, ihSecond fun c mem => ?_⟩
      · exact (Bool.and_eq_true_iff.mp (avoids c mem)).1
      · exact (Bool.and_eq_true_iff.mp (avoids c mem)).2
  | rep least extra inner ih => exact ih avoids

theorem Body.Within.first {body : Body} {set : Char → Bool} (within : body.Within set) {c : Char}
    (isFirst : body.first c = true) : set c = true := by
  induction body with
  | one inner => exact within c isFirst
  | seq first second ihFirst ihSecond =>
      rw [Body.first, Bool.or_eq_true, Bool.and_eq_true] at isFirst
      rcases isFirst with isFirst | ⟨-, isFirst⟩
      · exact ihFirst within.1 isFirst
      · exact ihSecond within.2 isFirst
  | alt first second ihFirst ihSecond =>
      rw [Body.first, Bool.or_eq_true] at isFirst
      rcases isFirst with isFirst | isFirst
      · exact ihFirst within.1 isFirst
      · exact ihSecond within.2 isFirst
  | rep least extra inner ih => exact ih within isFirst

theorem Body.Within.last {body : Body} {set : Char → Bool} (within : body.Within set) {c : Char}
    (isLast : body.last c = true) : set c = true := by
  induction body with
  | one inner => exact within c isLast
  | seq first second ihFirst ihSecond =>
      rw [Body.last, Bool.or_eq_true, Bool.and_eq_true] at isLast
      rcases isLast with isLast | ⟨-, isLast⟩
      · exact ihSecond within.2 isLast
      · exact ihFirst within.1 isLast
  | alt first second ihFirst ihSecond =>
      rw [Body.last, Bool.or_eq_true] at isLast
      rcases isLast with isLast | isLast
      · exact ihFirst within.1 isLast
      · exact ihSecond within.2 isLast
  | rep least extra inner ih => exact ih within isLast

theorem Body.outside_le_countP {body : Body} (chars : List Char) (spelled : Spells body word) :
    body.outside chars ≤ word.countP (· ∉ chars) := by
  induction body generalizing word with
  | one set =>
      rcases spelled with ⟨c, rfl, inSet⟩
      rw [Body.outside]
      split_ifs with meets
      · exact Nat.zero_le _
      · have absent : c ∉ chars := fun mem => meets (List.any_eq_true.mpr ⟨c, mem, inSet⟩)
        simp [absent]
  | seq first second ihFirst ihSecond =>
      rcases spelled with ⟨left, right, rfl, spelledLeft, spelledRight⟩
      rw [List.countP_append]
      exact Nat.add_le_add (ihFirst spelledLeft) (ihSecond spelledRight)
  | alt first second ihFirst ihSecond =>
      rcases spelled with spelled | spelled
      · exact (min_le_left _ _).trans (ihFirst spelled)
      · exact (min_le_right _ _).trans (ihSecond spelled)
  | rep least extra inner ih =>
      change Rounds _ (extra.getD word.length) least word at spelled
      rw [Body.outside]
      generalize extra.getD word.length = most at spelled
      induction least generalizing word with
      | zero => simp
      | succ least ihLeast =>
          rcases spelled with ⟨left, right, rfl, spelledLeft, spelledRight⟩
          rw [List.countP_append, Nat.succ_mul, Nat.add_comm]
          exact Nat.add_le_add (ih spelledLeft) (ihLeast spelledRight)

/-- No word is shorter than the characters it must have. -/
theorem Body.outside_nil_le_length {body : Body} (spelled : Spells body word) :
    body.outside [] ≤ word.length := by
  simpa using Body.outside_le_countP [] spelled

theorem Body.outside_eq_zero {body : Body} (spelled : Spells body []) :
    (body.outside [] == 0) = true := by
  have short := Body.outside_nil_le_length spelled
  rw [List.length_nil] at short
  rw [beq_iff_eq]
  omega

theorem Body.first_of_spells {body : Body} {c : Char} {rest : List Char}
    (spelled : Spells body (c :: rest)) : body.first c = true := by
  generalize same : c :: rest = word at spelled
  induction body generalizing word rest with
  | one set =>
      rcases spelled with ⟨d, rfl, inSet⟩
      cases same
      exact inSet
  | seq first second ihFirst ihSecond =>
      rcases spelled with ⟨left, right, rfl, spelledLeft, spelledRight⟩
      rw [Body.first, Bool.or_eq_true]
      rcases left with _ | ⟨d, left⟩
      · right
        rw [Body.outside_eq_zero spelledLeft, Bool.true_and]
        exact ihSecond _ same spelledRight
      · left
        rw [List.cons_append, List.cons.injEq] at same
        rcases same with ⟨rfl, -⟩
        exact ihFirst _ rfl spelledLeft
  | alt first second ihFirst ihSecond =>
      rw [Body.first, Bool.or_eq_true]
      rcases spelled with spelled | spelled
      · exact .inl (ihFirst _ same spelled)
      · exact .inr (ihSecond _ same spelled)
  | rep least extra inner ih =>
      refine Rounds.induction (fun word => ∀ rest, c :: rest = word → inner.first c = true)
        (by simp) ?_ spelled _ same
      intro left right spelledLeft kept rest same
      rcases left with _ | ⟨d, left⟩
      · exact kept _ same
      · rw [List.cons_append, List.cons.injEq] at same
        rcases same with ⟨rfl, -⟩
        exact ih _ rfl spelledLeft

theorem Body.last_of_spells {body : Body} {c : Char} {front : List Char}
    (spelled : Spells body (front ++ [c])) : body.last c = true := by
  generalize same : front ++ [c] = word at spelled
  induction body generalizing word front with
  | one set =>
      rcases spelled with ⟨d, rfl, inSet⟩
      rcases front with _ | ⟨e, front⟩
      · cases same
        exact inSet
      · simp at same
  | seq first second ihFirst ihSecond =>
      rcases spelled with ⟨left, right, rfl, spelledLeft, spelledRight⟩
      rw [Body.last, Bool.or_eq_true]
      rcases List.eq_nil_or_concat' right with rfl | ⟨right, d, rfl⟩
      · right
        rw [Body.outside_eq_zero spelledRight, Bool.true_and]
        exact ihFirst _ (by rwa [List.append_nil] at same) spelledLeft
      · left
        rw [← List.append_assoc] at same
        rcases List.append_singleton_inj.mp same with ⟨-, rfl⟩
        exact ihSecond _ rfl spelledRight
  | alt first second ihFirst ihSecond =>
      rw [Body.last, Bool.or_eq_true]
      rcases spelled with spelled | spelled
      · exact .inl (ihFirst _ same spelled)
      · exact .inr (ihSecond _ same spelled)
  | rep least extra inner ih =>
      refine Rounds.induction (fun word => ∀ front, front ++ [c] = word → inner.last c = true)
        (by simp) ?_ spelled _ same
      intro left right spelledLeft kept front same
      rcases List.eq_nil_or_concat' right with rfl | ⟨right, d, rfl⟩
      · exact ih _ (by rwa [List.append_nil] at same) spelledLeft
      · rw [← List.append_assoc] at same
        rcases List.append_singleton_inj.mp same with ⟨-, rfl⟩
        exact kept _ rfl

end Words

section Reading

variable {readable : Char → Bool} {text : List α} {text' : List β}

/-- The characters up to the first one that is not readable. -/
def reading (readable : Char → Bool) (text : List α) : List Char :=
  (text.takeWhile fun glyph => readable (char glyph)).map char

theorem reading_cons (glyph : α) (rest : List α) :
    reading readable (glyph :: rest) =
      if readable (char glyph) = true then char glyph :: reading readable rest else [] := by
  unfold reading
  rw [List.takeWhile_cons]
  split_ifs <;> rfl

theorem reading_drop {n : ℕ} (short : n ≤ (reading readable text).length) :
    reading readable (text.drop n) = (reading readable text).drop n := by
  induction n generalizing text with
  | zero => rfl
  | succ n ih =>
      cases text with
      | nil => simp [reading] at short
      | cons glyph rest =>
          rw [reading_cons] at short ⊢
          split_ifs at short ⊢ with isReadable
          · exact ih (by simpa using short)
          · simp at short

/-- The readable start of a text is what a match within it is made of. -/
theorem take_map_char {n : ℕ} (short : n ≤ (reading readable text).length) :
    (text.take n).map char = (reading readable text).take n := by
  induction n generalizing text with
  | zero => rfl
  | succ n ih =>
      cases text with
      | nil => simp [reading] at short
      | cons glyph rest =>
          rw [reading_cons] at short ⊢
          split_ifs at short ⊢ with isReadable
          · rw [List.take_succ_cons, List.map_cons, List.take_succ_cons, ih (by simpa using short)]
          · simp at short

theorem le_length_reading {n : ℕ} (short : n ≤ text.length)
    (inside : ∀ c ∈ (text.take n).map char, readable c = true) :
    n ≤ (reading readable text).length := by
  rw [reading, List.length_map, le_length_takeWhile_iff short]
  intro glyph mem
  exact inside _ (List.mem_map_of_mem mem)

variable {step : List α → List ℕ} {step' : List β → List ℕ}

/-- The two functions agree on texts that read alike, and do not go beyond what is readable. -/
structure Alike (readable : Char → Bool) (step : List α → List ℕ) (step' : List β → List ℕ) :
    Prop where
  same : ∀ {text text'}, reading readable text = reading readable text' → step text = step' text'
  bounded : ∀ {text n}, n ∈ step text → n ≤ (reading readable text).length

omit [Glyph α] in
theorem optional_of_silent (extra : ℕ) (silent : ∀ n ∈ step text, n = 0) :
    optional step extra text = [0] := by
  cases extra with
  | zero => rfl
  | succ extra =>
      have none : (step text).filter (0 < ·) = [] := by
        rw [List.filter_eq_nil_iff]
        intro n mem
        simp [silent n mem]
      rw [optional, none]
      rfl

theorem Alike.optional (alike : Alike readable step step') {extra extra' : ℕ}
    (enough : extra = extra' ∨
      (reading readable text).length ≤ extra ∧ (reading readable text).length ≤ extra')
    (same : reading readable text = reading readable text') :
    Lookaround.optional step extra text = Lookaround.optional step' extra' text' := by
  induction extra generalizing extra' text text' with
  | zero =>
      rcases enough with rfl | ⟨none, -⟩
      · rfl
      · have silent : ∀ n ∈ step text, n = 0 := by
          intro n mem
          have := alike.bounded mem
          omega
        rw [optional_of_silent 0 silent, optional_of_silent]
        rwa [← alike.same same]
  | succ extra ih =>
      cases extra' with
      | zero =>
          have silent : ∀ n ∈ step text, n = 0 := by
            intro n mem
            have := alike.bounded mem
            omega
          rw [optional_of_silent _ silent, optional_of_silent]
          rwa [← alike.same same]
      | succ extra' =>
          rw [Lookaround.optional, Lookaround.optional, ← alike.same same]
          congr 1
          refine List.flatMap_congr fun n mem => ?_
          rw [List.mem_filter, decide_eq_true_eq] at mem
          have short := alike.bounded mem.1
          have short' : n ≤ (reading readable text').length := by rwa [← same]
          have same' : reading readable (text.drop n) = reading readable (text'.drop n) := by
            rw [reading_drop short, reading_drop short', same]
          have enough' : extra = extra' ∨ (reading readable (text.drop n)).length ≤ extra ∧
              (reading readable (text.drop n)).length ≤ extra' := by
            rw [reading_drop short, List.length_drop]
            omega
          rw [ih enough' same']

theorem Alike.rounds (alike : Alike readable step step') {extra extra' : ℕ} (least : ℕ)
    (enough : extra = extra' ∨
      (reading readable text).length ≤ extra ∧ (reading readable text).length ≤ extra')
    (same : reading readable text = reading readable text') :
    Lookaround.rounds step extra least text = Lookaround.rounds step' extra' least text' := by
  induction least generalizing text text' with
  | zero => exact alike.optional enough same
  | succ least ih =>
      rw [Lookaround.rounds, Lookaround.rounds, ← alike.same same]
      refine List.flatMap_congr fun n mem => ?_
      have short := alike.bounded mem
      have short' : n ≤ (reading readable text').length := by rwa [← same]
      have same' : reading readable (text.drop n) = reading readable (text'.drop n) := by
        rw [reading_drop short, reading_drop short', same]
      have enough' : extra = extra' ∨ (reading readable (text.drop n)).length ≤ extra ∧
          (reading readable (text.drop n)).length ≤ extra' := by
        rw [reading_drop short, List.length_drop]
        omega
      rw [ih enough' same']

theorem length_reading_le (text : List α) : (reading readable text).length ≤ text.length := by
  rw [reading, List.length_map]
  exact (List.takeWhile_sublist _).length_le

theorem bounded_lengths {body : Body} (within : body.Within readable) {n : ℕ}
    (mem : n ∈ lengths body text) : n ≤ (reading readable text).length := by
  rcases (listsLengths_lengths body text n).mp mem with ⟨short, spelled⟩
  exact le_length_reading short (within.mem spelled)

/-- What a body matches depends on the readable start of the text. -/
theorem alike_lengths {body : Body} (within : body.Within readable) :
    Alike readable (lengths body : List α → List ℕ) (lengths body : List β → List ℕ) := by
  induction body with
  | one set =>
      refine ⟨fun {text text'} same => ?_, bounded_lengths within⟩
      have first {γ : Type} [Glyph γ] (text : List γ) : lengths (.one set) text =
          if (reading readable text).head?.any set = true then [1] else [] := by
        cases text with
        | nil => rfl
        | cons glyph rest =>
            rw [lengths, reading_cons]
            by_cases inSet : set (char glyph) = true
            · simp [inSet, within _ inSet]
            · by_cases isReadable : readable (char glyph) = true
              · simp [inSet, isReadable]
              · simp [inSet, isReadable]
      rw [first, first, same]
  | seq first second ihFirst ihSecond =>
      refine ⟨fun {text text'} same => ?_, bounded_lengths within⟩
      rw [lengths, lengths, ← (ihFirst within.1).same same]
      refine List.flatMap_congr fun n mem => ?_
      have short := (ihFirst within.1).bounded mem
      have short' : n ≤ (reading readable text').length := by rwa [← same]
      rw [(ihSecond within.2).same]
      rw [reading_drop short, reading_drop short', same]
  | alt first second ihFirst ihSecond =>
      refine ⟨fun {text text'} same => ?_, bounded_lengths within⟩
      rw [lengths, lengths, (ihFirst within.1).same same, (ihSecond within.2).same same]
  | rep least extra inner ih =>
      refine ⟨fun {text text'} same => ?_, bounded_lengths within⟩
      rw [lengths, lengths]
      refine (ih within).rounds least ?_ same
      cases extra with
      | some extra => exact .inl rfl
      | none =>
          refine .inr ⟨length_reading_le text, ?_⟩
          rw [same]
          exact length_reading_le text'

/-- The pattern reads no other characters. -/
structure Pattern.Reads (pattern : Pattern) (readable : Char → Bool) : Prop where
  body : pattern.body.Within readable
  notBefore : pattern.notBefore.Within readable

/-- The match at a place depends on the readable text behind it and on whether the character
before it is refused. -/
theorem matchLength_congr {pattern : Pattern} (reads : pattern.Reads readable)
    {prev prev' : Option Char} (before : prev.any pattern.notAfter = prev'.any pattern.notAfter)
    (same : reading readable text = reading readable text') :
    matchLength pattern prev text = matchLength pattern prev' text' := by
  rw [matchLength, matchLength, before, (alike_lengths reads.body).same same]
  congr 1
  refine List.find?_congr fun n mem => ?_
  have short' := bounded_lengths reads.body mem
  have short : n ≤ (reading readable text).length := by rwa [same]
  have same' : reading readable (text.drop n) = reading readable (text'.drop n) := by
    rw [reading_drop short, reading_drop short', same]
  rw [(alike_lengths reads.notBefore).same same']

end Reading

section Matching

variable {pattern : Pattern} {prev : Option Char} {text taken after : List α}

/-- The lookahead refuses no start of the text. -/
def Pattern.Allows (pattern : Pattern) (after : List α) : Prop :=
  ∀ word rest, after.map char = word ++ rest → ¬ Spells pattern.notBefore word

/-- A word of the body between texts the lookarounds allow. -/
structure Fits (pattern : Pattern) (prev : Option Char) (taken after : List α) : Prop where
  before : prev.any pattern.notAfter = false
  spelled : Spells pattern.body (taken.map char)
  allows : pattern.Allows after

theorem allows_iff : pattern.Allows after ↔ (lengths pattern.notBefore after).isEmpty = true := by
  rw [List.isEmpty_iff, List.eq_nil_iff_forall_not_mem]
  constructor
  · intro allows n mem
    rcases (listsLengths_lengths _ after n).mp mem with ⟨-, spelled⟩
    refine allows _ ((after.drop n).map char) ?_ spelled
    rw [← List.map_append, List.take_append_drop]
  · intro none word rest split spelled
    refine none word.length ((listsLengths_lengths _ after _).mpr ⟨?_, ?_⟩)
    · have size := congrArg List.length split
      rw [List.length_map, List.length_append] at size
      omega
    · rwa [List.map_take, split, List.take_left]

theorem allows_one_iff {set : Char → Bool} (single : pattern.notBefore = .one set) :
    pattern.Allows after ↔ ∀ glyph ∈ after.head?, set (char glyph) = false := by
  rw [allows_iff, single]
  cases after with
  | nil => simp [lengths]
  | cons glyph rest => cases inSet : set (char glyph) <;> simp [lengths, inSet]

theorem matchLength_eq_some {n : ℕ} (found : matchLength pattern prev text = some n) :
    n ≤ text.length ∧ Fits pattern prev (text.take n) (text.drop n) := by
  rw [matchLength] at found
  split_ifs at found with refused
  rcases (listsLengths_lengths _ text n).mp (List.mem_of_find?_eq_some found) with ⟨short, spelled⟩
  have allowed := List.find?_some found
  exact ⟨short, Bool.eq_false_of_not_eq_true refused, spelled, allows_iff.mpr allowed⟩

theorem matchLength_eq_none_iff : matchLength pattern prev text = none ↔
    ∀ taken after, text = taken ++ after → ¬ Fits pattern prev taken after := by
  rw [matchLength]
  split_ifs with refused
  · refine iff_of_true rfl ?_
    rintro taken after - fits
    rw [fits.before] at refused
    cases refused
  · rw [List.find?_eq_none]
    constructor
    · rintro none taken after rfl fits
      refine none taken.length ((listsLengths_lengths _ _ _).mpr ⟨?_, ?_⟩) ?_
      · rw [List.length_append]
        omega
      · rw [List.take_left]
        exact fits.spelled
      · rw [List.drop_left]
        exact allows_iff.mp fits.allows
    · intro none n mem allowed
      rcases (listsLengths_lengths _ text n).mp mem with ⟨-, spelled⟩
      exact none _ _ (List.take_append_drop n text).symm
        ⟨Bool.eq_false_of_not_eq_true refused, spelled, allows_iff.mpr allowed⟩

/-- The body matches no empty text. -/
def Pattern.Consumes (pattern : Pattern) : Prop :=
  ¬ Spells pattern.body []

theorem taken_ne_nil (consumes : pattern.Consumes) (fits : Fits pattern prev taken after) :
    taken ≠ [] := by
  rintro rfl
  exact consumes fits.spelled

/-- A text is scanned from match to match. -/
theorem scan_induction {motive : Option Char → List α → Prop} (consumes : pattern.Consumes)
    (nil : ∀ prev, motive prev [])
    (copy : ∀ prev glyph rest, matchLength pattern prev (glyph :: rest) = none →
      motive (some (char glyph)) rest → motive prev (glyph :: rest))
    (found : ∀ prev taken rest, taken ≠ [] →
      matchLength pattern prev (taken ++ rest) = some taken.length →
      Fits pattern prev taken rest → motive (lastChar prev taken) rest →
      motive prev (taken ++ rest))
    (prev : Option Char) (text : List α) : motive prev text := by
  induction size : text.length using Nat.strong_induction_on generalizing prev text with
  | _ size' ih =>
      subst size
      cases text with
      | nil => exact nil prev
      | cons glyph rest =>
          cases outcome : matchLength pattern prev (glyph :: rest) with
          | none => exact copy prev glyph rest outcome (ih _ (by simp) _ rest rfl)
          | some n =>
              rcases matchLength_eq_some outcome with ⟨short, fits⟩
              have nonempty := taken_ne_nil consumes fits
              have size : ((glyph :: rest).take n).length = n := by
                rw [List.length_take]
                omega
              have positive := List.length_pos_iff.mpr nonempty
              rw [← List.take_append_drop n (glyph :: rest)] at outcome ⊢
              refine found prev _ _ nonempty (by rw [size]; exact outcome) fits ?_
              refine ih _ ?_ _ _ rfl
              rw [List.length_drop]
              omega

end Matching

section Substitution

variable {σ : Type} {pattern : Pattern} {replace : List α → σ → List α × σ} {prev : Option Char}
  {taken rest : List α} {state : σ}

theorem subFrom_skip (prev : Option Char) (taken rest : List α) (state : σ) :
    subFrom pattern replace prev taken.length (taken ++ rest) state =
      subFrom pattern replace (lastChar prev taken) 0 rest state := by
  induction taken generalizing prev with
  | nil => rfl
  | cons glyph taken ih =>
      rw [List.length_cons, List.cons_append, subFrom, lastChar_cons]
      exact ih _

theorem subFrom_copy {glyph : α} (none : matchLength pattern prev (glyph :: rest) = none) :
    subFrom pattern replace prev 0 (glyph :: rest) state =
      (glyph :: (subFrom pattern replace (some (char glyph)) 0 rest state).1,
        (subFrom pattern replace (some (char glyph)) 0 rest state).2) := by
  rw [subFrom, none]

theorem subFrom_found (nonempty : taken ≠ [])
    (found : matchLength pattern prev (taken ++ rest) = some taken.length) :
    subFrom pattern replace prev 0 (taken ++ rest) state =
      ((replace taken state).1 ++
          (subFrom pattern replace (lastChar prev taken) 0 rest (replace taken state).2).1,
        (subFrom pattern replace (lastChar prev taken) 0 rest (replace taken state).2).2) := by
  rcases taken with _ | ⟨glyph, taken⟩
  · exact absurd rfl nonempty
  · rw [List.cons_append, List.length_cons] at found
    rw [List.cons_append, subFrom, found]
    dsimp only
    rw [List.take_left, subFrom_skip, lastChar_cons]

/-- A part of the text in which nothing matches is copied. -/
theorem subFrom_append_of_silent (prev : Option Char) (left right : List α)
    (silent : ∀ prev suffix, suffix ≠ [] → suffix <:+ left →
      matchLength pattern prev (suffix ++ right) = none) :
    subFrom pattern replace prev 0 (left ++ right) state =
      (left ++ (subFrom pattern replace (lastChar prev left) 0 right state).1,
        (subFrom pattern replace (lastChar prev left) 0 right state).2) := by
  induction left generalizing prev with
  | nil => rfl
  | cons glyph left ih =>
      have later := ih (some (char glyph)) fun prev suffix nonempty isSuffix =>
        silent prev suffix nonempty (isSuffix.trans (List.suffix_cons glyph left))
      have none : matchLength pattern prev (glyph :: (left ++ right)) = none :=
        silent prev (glyph :: left) (by simp) List.suffix_rfl
      rw [List.cons_append, subFrom_copy none, later, lastChar_cons]
      rfl

end Substitution

end Lookaround
