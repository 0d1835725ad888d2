import Mathlib

/-!
# Backtracking regular expressions

The part of Python's `re` that searches and substitutions of a program are made
of: runs of a character set, greedy or not, words, alternatives, groups, back
references and the anchors `^` and `\b`. A backtracking search tries the ways
to match an expression in a fixed order and takes the first one; `results` lists
them in that order.

Texts are lists of glyphs, symbols that show a character. The search reads the
characters only, so a text whose glyphs carry marks is searched and rewritten
like the text without them, and the marks show where the glyphs of the outcome
come from.
-/

namespace Regex

/-- Symbols that show a character. -/
class Glyph (α : Type) where
  char : α → Char
  ofChar : Char → α
  char_ofChar : ∀ c, char (ofChar c) = c

instance : Glyph Char where
  char c := c
  ofChar c := c
  char_ofChar _ := rfl

/-- Characters with a mark; those that a substitution inserts have none. -/
instance : Glyph (Char × Bool) where
  char glyph := glyph.1
  ofChar c := (c, false)
  char_ofChar _ := rfl

export Glyph (char ofChar char_ofChar)

attribute [simp] char_ofChar

@[simp]
theorem char_eq (c : Char) : char c = c := rfl

@[simp]
theorem map_char (text : List Char) : text.map char = text :=
  List.map_id' text

@[simp]
theorem map_ofChar (text : List Char) : text.map ofChar = text :=
  List.map_id' text

@[simp]
theorem char_comp_ofChar {α : Type} [Glyph α] : (char : α → Char) ∘ ofChar = id :=
  funext char_ofChar

/-- Expressions. `run` is a set with a quantifier, `runBut i` is `(?:(?!\i)set)*`. -/
inductive Expr where
  | run (set : Char → Bool) (least : ℕ) (most : Option ℕ) (greedy : Bool)
  | runBut (i : ℕ) (set : Char → Bool)
  | word (letters : List Char) (same : Char → Char → Bool)
  | seq (first second : Expr)
  | alt (first second : Expr)
  | group (i : ℕ) (inner : Expr)
  | backref (i : ℕ) (same : Char → Char → Bool)
  | lineStart
  | boundary (isWord : Char → Bool)

namespace Expr

/-- `[set]`. -/
def one (set : Char → Bool) : Expr := .run set 1 (some 1) true

/-- `[set]?`. -/
def opt (set : Char → Bool) : Expr := .run set 0 (some 1) true

/-- `[set]*`. -/
def many (set : Char → Bool) : Expr := .run set 0 none true

/-- `[set]+`. -/
def some (set : Char → Bool) : Expr := .run set 1 none true

/-- Expressions one after the other. -/
def chain (first : Expr) : List Expr → Expr
  | [] => first
  | next :: others => .seq first (chain next others)

/-- One of several words, tried in order. -/
def oneOf (same : Char → Char → Bool) (first : List Char) : List (List Char) → Expr
  | [] => .word first same
  | next :: others => .alt (.word first same) (oneOf same next others)

end Expr

/-- A text of one kind that is followed by something ends before a glyph of another kind. -/
theorem append_eq_append_cons {β : Type} {P : β → Prop} {x y b t : List β} {c : β}
    (split : x ++ y = b ++ c :: t) (inside : ∀ g ∈ x, P g) (outside : ¬ P c) :
    ∃ b', b = x ++ b' ∧ y = b' ++ c :: t := by
  rcases List.append_eq_append_iff.mp split with ⟨b', rfl, rest⟩ | ⟨x', rfl, rest⟩
  · exact ⟨b', rfl, rest⟩
  · rcases x' with _ | ⟨head, x'⟩
    · exact ⟨[], by simp, by simpa using rest.symm⟩
    · rw [List.cons_append, List.cons.injEq] at rest
      rcases rest with ⟨rfl, -⟩
      exact absurd (inside c (by simp)) outside

/-- A text before the last glyph of a kind is determined by the whole text. -/
theorem append_cons_inj {β : Type} {P : β → Prop} {front front' back back' : List β} {c c' : β}
    (split : front ++ c :: back = front' ++ c' :: back') (inside : ∀ d ∈ back, P d)
    (inside' : ∀ d ∈ back', P d) (outside : ¬P c) (outside' : ¬P c') :
    front = front' ∧ c = c' ∧ back = back' := by
  rcases List.append_eq_append_iff.mp split with ⟨middle, rfl, tail⟩ | ⟨middle, rfl, tail⟩
  · rcases middle with _ | ⟨d, middle⟩
    · rw [List.nil_append, List.cons.injEq] at tail
      exact ⟨by simp, tail.1, tail.2⟩
    · rw [List.cons_append, List.cons.injEq] at tail
      exact absurd (inside c' (by simp [tail.2])) outside'
  · rcases middle with _ | ⟨d, middle⟩
    · rw [List.nil_append, List.cons.injEq] at tail
      exact ⟨by simp, tail.1.symm, tail.2.symm⟩
    · rw [List.cons_append, List.cons.injEq] at tail
      exact absurd (inside' c (by simp [tail.2])) outside

variable {α : Type} [Glyph α]

/-- A place in a text: the character before it, the text after it, and the groups set on
the way to it. -/
structure Cursor (α : Type) where
  prev : Option Char
  rest : List α
  groups : ℕ → List α

/-- The character before the place that is reached by passing over `taken`. -/
def lastChar (prev : Option Char) (taken : List α) : Option Char :=
  taken.foldl (fun _ glyph => some (char glyph)) prev

/-- The place reached by passing over the next `n` glyphs. -/
def Cursor.advance (n : ℕ) (cursor : Cursor α) : Cursor α where
  prev := lastChar cursor.prev (cursor.rest.take n)
  rest := cursor.rest.drop n
  groups := cursor.groups

/-- The text starts with the letters, up to `same`. -/
def startsWith (same : Char → Char → Bool) : List Char → List α → Bool
  | [], _ => true
  | _ :: _, [] => false
  | letter :: letters, glyph :: rest => same letter (char glyph) && startsWith same letters rest

/-- The length of the longest run of the set that avoids the text `avoided`. -/
def butLength (avoided : List Char) (set : Char → Bool) : List α → ℕ
  | [] => 0
  | glyph :: rest =>
      if set (char glyph) && !startsWith (fun a b => a == b) avoided (glyph :: rest) then
        butLength avoided set rest + 1
      else 0

/-- The lengths a run may have, in the order they are tried. -/
def lengths (least longest : ℕ) (greedy : Bool) : List ℕ :=
  let upward := (List.range (longest + 1)).filter (least ≤ ·)
  if greedy then upward.reverse else upward

/-- The ways to match an expression from a cursor on, in the order they are tried. -/
def results : Expr → Cursor α → List (Cursor α)
  | .run set least most greedy, cursor =>
      let available := (cursor.rest.takeWhile fun glyph => set (char glyph)).length
      let longest := match most with
        | none => available
        | some most => min available most
      (lengths least longest greedy).map fun n => cursor.advance n
  | .runBut i set, cursor =>
      let longest := butLength ((cursor.groups i).map char) set cursor.rest
      (lengths 0 longest true).map fun n => cursor.advance n
  | .word letters same, cursor =>
      if startsWith same letters cursor.rest then [cursor.advance letters.length] else []
  | .seq first second, cursor => (results first cursor).flatMap (results second)
  | .alt first second, cursor => results first cursor ++ results second cursor
  | .group i inner, cursor =>
      (results inner cursor).map fun final =>
        { final with
          groups := Function.update final.groups i
            (cursor.rest.take (cursor.rest.length - final.rest.length)) }
  | .backref i same, cursor =>
      let letters := (cursor.groups i).map char
      if startsWith same letters cursor.rest then [cursor.advance letters.length] else []
  | .lineStart, cursor =>
      match cursor.prev with
      | none => [cursor]
      | some c => if c = '\n' then [cursor] else []
  | .boundary isWord, cursor =>
      let before := cursor.prev.any isWord
      let behind := cursor.rest.head?.any fun glyph => isWord (char glyph)
      if before != behind then [cursor] else []

/-- `pattern.match`: the first way to match at a place. -/
def matchAt (expr : Expr) (prev : Option Char) (text : List α) : Option (Cursor α) :=
  (results expr { prev, rest := text, groups := fun _ => [] }).head?

/-- `pattern.search`: the first place where the expression matches, as the text passed over
to get there and the cursor behind the match. -/
def search (expr : Expr) (prev : Option Char) : List α → Option (List α × Cursor α)
  | [] => (matchAt expr prev []).map fun final => ([], final)
  | glyph :: rest =>
      match matchAt expr prev (glyph :: rest) with
      | some final => some ([], final)
      | none =>
          (search expr (some (char glyph)) rest).map fun found => (glyph :: found.1, found.2)

/-- A part of a replacement: literal text or the text of a group. -/
inductive Part where
  | literal (text : List Char)
  | ref (i : ℕ)

/-- The replacement for a match with these groups. -/
def expand (groups : ℕ → List α) (template : List Part) : List α :=
  template.flatMap fun
    | .literal text => text.map ofChar
    | .ref i => groups i

/-- `pattern.sub` from a place on, where the next `skip` glyphs belong to a match that has
been replaced. An empty match is passed over. -/
def subFrom (expr : Expr) (template : List Part) : Option Char → ℕ → List α → List α
  | _, _, [] => []
  | _, skip + 1, glyph :: rest => subFrom expr template (some (char glyph)) skip rest
  | prev, 0, glyph :: rest =>
      match matchAt expr prev (glyph :: rest) with
      | none => glyph :: subFrom expr template (some (char glyph)) 0 rest
      | some final =>
          if final.rest.length ≤ rest.length then
            expand final.groups template ++
              subFrom expr template (some (char glyph)) (rest.length - final.rest.length) rest
          else glyph :: subFrom expr template (some (char glyph)) 0 rest

/-- The groups of the matches that `pattern.finditer` finds from a place on, where the next
`skip` glyphs belong to a match that has been found. An empty match is passed over. -/
def findFrom (expr : Expr) : Option Char → ℕ → List α → List (ℕ → List α)
  | _, _, [] => []
  | _, skip + 1, glyph :: rest => findFrom expr (some (char glyph)) skip rest
  | prev, 0, glyph :: rest =>
      match matchAt expr prev (glyph :: rest) with
      | none => findFrom expr (some (char glyph)) 0 rest
      | some final =>
          if final.rest.length ≤ rest.length then
            final.groups ::
              findFrom expr (some (char glyph)) (rest.length - final.rest.length) rest
          else findFrom expr (some (char glyph)) 0 rest

/-- `pattern.finditer(text)`. -/
def findIter (expr : Expr) (text : List α) : List (ℕ → List α) :=
  findFrom expr none 0 text

/-- `pattern.sub(template, text)`. -/
def sub (expr : Expr) (template : List Part) (text : List α) : List α :=
  subFrom expr template none 0 text

section Ways

/-- The glyphs spell the letters, up to `same`. -/
def Spells (same : Char → Char → Bool) (letters : List Char) (glyphs : List α) : Prop :=
  List.Forall₂ (fun letter glyph => same letter (char glyph) = true) letters glyphs

/-- The expression matches `taken`, which stands behind `prev` and before `rest`, and turns
the groups into `groups'`. -/
def Ways : Expr → Option Char → (ℕ → List α) → List α → List α → (ℕ → List α) → Prop
  | .run set least most _, _, groups, taken, _, groups' =>
      (∀ glyph ∈ taken, set (char glyph) = true) ∧ least ≤ taken.length ∧
        (∀ bound ∈ most, taken.length ≤ bound) ∧ groups' = groups
  | .runBut i set, _, groups, taken, rest, groups' =>
      taken.length ≤ butLength ((groups i).map char) set (taken ++ rest) ∧ groups' = groups
  | .word letters same, _, groups, taken, _, groups' =>
      Spells same letters taken ∧ groups' = groups
  | .seq first second, prev, groups, taken, rest, groups' =>
      ∃ left right middle, taken = left ++ right ∧
        Ways first prev groups left (right ++ rest) middle ∧
        Ways second (lastChar prev left) middle right rest groups'
  | .alt first second, prev, groups, taken, rest, groups' =>
      Ways first prev groups taken rest groups' ∨ Ways second prev groups taken rest groups'
  | .group i inner, prev, groups, taken, rest, groups' =>
      ∃ inside, Ways inner prev groups taken rest inside ∧
        groups' = Function.update inside i taken
  | .backref i same, _, groups, taken, _, groups' =>
      Spells same ((groups i).map char) taken ∧ groups' = groups
  | .lineStart, prev, groups, taken, _, groups' =>
      taken = [] ∧ (∀ c ∈ prev, c = '\n') ∧ groups' = groups
  | .boundary isWord, prev, groups, taken, rest, groups' =>
      taken = [] ∧
        prev.any isWord ≠ rest.head?.any (fun glyph => isWord (char glyph)) ∧ groups' = groups

variable {expr first second : Expr} {cursor final : Cursor α} {prev : Option Char}
  {groups : ℕ → List α} {taken rest : List α}

attribute [local simp] results Ways in
theorem ways_many {set : Char → Bool} {groups' : ℕ → List α} :
    Ways (.many set) prev groups taken rest groups' ↔
      (∀ glyph ∈ taken, set (char glyph) = true) ∧ groups' = groups := by
  simp [Expr.many]

@[simp]
theorem lastChar_nil (prev : Option Char) : lastChar prev ([] : List α) = prev := rfl

@[simp]
theorem lastChar_cons (prev : Option Char) (glyph : α) (taken : List α) :
    lastChar prev (glyph :: taken) = lastChar (some (char glyph)) taken := rfl

@[simp]
theorem lastChar_append (prev : Option Char) (left right : List α) :
    lastChar prev (left ++ right) = lastChar (lastChar prev left) right := by
  simp [lastChar]

theorem startsWith_iff (same : Char → Char → Bool) (letters : List Char) (text : List α) :
    startsWith same letters text = true ↔
      ∃ taken rest, text = taken ++ rest ∧ Spells same letters taken := by
  induction letters generalizing text with
  | nil => exact ⟨fun _ => ⟨[], text, rfl, .nil⟩, fun _ => by cases text <;> rfl⟩
  | cons letter letters ih =>
      cases text with
      | nil =>
          simp only [startsWith, Bool.false_eq_true, false_iff]
          rintro ⟨taken, rest, same, spells⟩
          rw [eq_comm, List.append_eq_nil_iff] at same
          rcases same with ⟨rfl, rfl⟩
          cases spells
      | cons glyph text =>
          simp only [startsWith, Bool.and_eq_true, ih]
          constructor
          · rintro ⟨equal, taken, rest, rfl, spells⟩
            exact ⟨glyph :: taken, rest, rfl, .cons equal spells⟩
          · rintro ⟨taken, rest, same, spells⟩
            cases spells with
            | cons equal spells =>
                rw [List.cons_append, List.cons.injEq] at same
                rcases same with ⟨rfl, rfl⟩
                exact ⟨equal, _, _, rfl, spells⟩

theorem Spells.length_eq {same : Char → Char → Bool} {letters : List Char} {glyphs : List α}
    (spells : Spells same letters glyphs) : glyphs.length = letters.length :=
  (List.Forall₂.length_eq spells).symm

theorem spells_nil_right {same : Char → Char → Bool} {letters : List Char} :
    Spells same letters ([] : List α) ↔ letters = [] :=
  List.forall₂_nil_right_iff

theorem spells_beq_iff {letters : List Char} {glyphs : List α} :
    Spells (fun a b => a == b) letters glyphs ↔ glyphs.map char = letters := by
  induction letters generalizing glyphs with
  | nil => simp [Spells]
  | cons letter letters ih =>
      cases glyphs with
      | nil => simp [Spells]
      | cons glyph glyphs =>
          rw [Spells, List.forall₂_cons, List.map_cons, List.cons.injEq, beq_iff_eq]
          exact and_congr eq_comm ih

theorem spells_singleton {same : Char → Char → Bool} {letter : Char} {glyphs : List α} :
    Spells same [letter] glyphs ↔
      ∃ glyph, same letter (char glyph) = true ∧ glyphs = [glyph] := by
  simp [Spells, List.forall₂_cons_left_iff]

theorem advance_append (taken rest : List α) (prev : Option Char) (groups : ℕ → List α) :
    (⟨prev, taken ++ rest, groups⟩ : Cursor α).advance taken.length =
      ⟨lastChar prev taken, rest, groups⟩ := by
  simp [Cursor.advance]

/-- A word is matched in one way or in none. -/
theorem results_word_spelled {same : Char → Char → Bool} {letters : List Char}
    (spells : Spells same letters taken) :
    results (.word letters same) ⟨prev, taken ++ rest, groups⟩ =
      [⟨lastChar prev taken, rest, groups⟩] := by
  have starts : startsWith same letters (taken ++ rest) = true :=
    (startsWith_iff _ _ _).mpr ⟨_, _, rfl, spells⟩
  simp only [results, starts, if_true]
  rw [← spells.length_eq, advance_append]

theorem mem_lengths {n least longest : ℕ} {greedy : Bool} :
    n ∈ lengths least longest greedy ↔ least ≤ n ∧ n ≤ longest := by
  cases greedy <;> simp [lengths, and_comm]

theorem le_length_takeWhile_iff {set : Char → Bool} {n : ℕ} {text : List α}
    (within : n ≤ text.length) :
    n ≤ (text.takeWhile fun glyph => set (char glyph)).length ↔
      ∀ glyph ∈ text.take n, set (char glyph) = true := by
  induction text generalizing n with
  | nil =>
      simp only [List.length_nil, Nat.le_zero] at within
      simp [within]
  | cons glyph text ih =>
      cases n with
      | zero => simp
      | succ n =>
          simp only [List.length_cons, Nat.add_le_add_iff_right] at within
          rw [List.takeWhile_cons, List.take_succ_cons, List.forall_mem_cons, ← ih within]
          cases set (char glyph) <;> simp

theorem results_word_or (same : Char → Char → Bool) (letters : List Char)
    (cursor final : Cursor α) :
    final ∈ (if startsWith same letters cursor.rest then [cursor.advance letters.length]
        else []) ↔
      ∃ taken, cursor.rest = taken ++ final.rest ∧ final.prev = lastChar cursor.prev taken ∧
        Spells same letters taken ∧ final.groups = cursor.groups := by
  rcases cursor with ⟨prev, text, groups⟩
  rcases final with ⟨prev', rest, groups'⟩
  by_cases starts : startsWith same letters text = true
  · rcases (startsWith_iff _ _ _).mp starts with ⟨taken, rest', rfl, spells⟩
    simp only [starts, if_true, List.mem_singleton, ← spells.length_eq, advance_append,
      Cursor.mk.injEq]
    constructor
    · rintro ⟨rfl, rfl, rfl⟩
      exact ⟨taken, rfl, rfl, spells, rfl⟩
    · rintro ⟨taken', split, rfl, spells', rfl⟩
      have same := List.append_inj split (spells.length_eq.trans spells'.length_eq.symm)
      rcases same with ⟨rfl, rfl⟩
      exact ⟨rfl, rfl, rfl⟩
  · rw [if_neg starts]
    simp only [List.not_mem_nil, false_iff]
    rintro ⟨taken, split, -, spells, -⟩
    exact starts ((startsWith_iff _ _ _).mpr ⟨taken, rest, split, spells⟩)

theorem butLength_le (avoided : List Char) (set : Char → Bool) (text : List α) :
    butLength avoided set text ≤ text.length := by
  induction text with
  | nil => exact Nat.le_refl 0
  | cons glyph text ih =>
      unfold butLength
      split_ifs
      · exact Nat.succ_le_succ ih
      · exact Nat.zero_le _

theorem mem_set_of_le_butLength {avoided : List Char} {set : Char → Bool}
    (length : taken.length ≤ butLength avoided set (taken ++ rest)) :
    ∀ glyph ∈ taken, set (char glyph) = true := by
  induction taken with
  | nil => simp
  | cons glyph taken ih =>
      rw [List.cons_append] at length
      unfold butLength at length
      split_ifs at length with inSet
      · rw [Bool.and_eq_true] at inSet
        rw [List.forall_mem_cons]
        exact ⟨inSet.1, ih (Nat.le_of_succ_le_succ length)⟩
      · cases length

theorem ne_of_le_butLength {avoided : Char} {set : Char → Bool}
    (length : taken.length ≤ butLength [avoided] set (taken ++ rest)) :
    ∀ glyph ∈ taken, char glyph ≠ avoided := by
  induction taken with
  | nil => simp
  | cons glyph taken ih =>
      rw [List.cons_append] at length
      unfold butLength at length
      split_ifs at length with inSet
      · rw [List.forall_mem_cons]
        refine ⟨?_, ih (Nat.le_of_succ_le_succ length)⟩
        rintro rfl
        simp [startsWith] at inSet
      · cases length

theorem mem_map_advance {least longest : ℕ} {greedy : Bool}
    (within : longest ≤ cursor.rest.length) :
    final ∈ (lengths least longest greedy).map (fun n => cursor.advance n) ↔
      ∃ taken, cursor.rest = taken ++ final.rest ∧ final.prev = lastChar cursor.prev taken ∧
        (least ≤ taken.length ∧ taken.length ≤ longest) ∧ final.groups = cursor.groups := by
  rcases cursor with ⟨prev, text, groups⟩
  rcases final with ⟨prev', rest, groups'⟩
  simp only [List.mem_map, mem_lengths]
  constructor
  · rintro ⟨n, bounds, same⟩
    simp only [Cursor.advance, Cursor.mk.injEq] at same
    rcases same with ⟨rfl, rfl, rfl⟩
    have length : (text.take n).length = n := by
      rw [List.length_take]
      dsimp only at within
      omega
    exact ⟨text.take n, (List.take_append_drop n text).symm, rfl, length.symm ▸ bounds, rfl⟩
  · rintro ⟨taken, split, rfl, bounds, rfl⟩
    subst split
    exact ⟨taken.length, bounds, advance_append _ _ _ _⟩

omit [Glyph α] in
theorem take_sub_length (taken rest : List α) :
    (taken ++ rest).take ((taken ++ rest).length - rest.length) = taken := by
  rw [List.length_append, Nat.add_sub_cancel, List.take_left]

/-- `results` lists the ways of matching. -/
theorem mem_results_iff {expr : Expr} {cursor final : Cursor α} :
    final ∈ results expr cursor ↔
      ∃ taken, cursor.rest = taken ++ final.rest ∧ final.prev = lastChar cursor.prev taken ∧
        Ways expr cursor.prev cursor.groups taken final.rest final.groups := by
  induction expr generalizing cursor final with
  | run set least most greedy =>
      have within : (match most with
          | none => (cursor.rest.takeWhile fun glyph => set (char glyph)).length
          | some most => min (cursor.rest.takeWhile fun glyph => set (char glyph)).length most) ≤
          cursor.rest.length := by
        have available : (cursor.rest.takeWhile fun glyph => set (char glyph)).length ≤
            cursor.rest.length := (List.takeWhile_sublist _).length_le
        cases most with
        | none => exact available
        | some most => exact le_trans (min_le_left _ _) available
      simp only [results]
      rw [mem_map_advance within]
      refine exists_congr fun taken => and_congr_right fun split => and_congr_right fun _ => ?_
      have covered : taken.length ≤
            (cursor.rest.takeWhile fun glyph => set (char glyph)).length ↔
          ∀ glyph ∈ cursor.rest.take taken.length, set (char glyph) = true :=
        le_length_takeWhile_iff (by rw [split, List.length_append]; omega)
      rw [split, List.take_left] at covered
      rw [split, Ways]
      cases most with
      | none =>
          simp only [covered, Option.mem_def, reduceCtorEq, false_implies, implies_true, true_and]
          tauto
      | some most =>
          simp only [le_min_iff, covered, Option.mem_def, Option.some.injEq, forall_eq']
          tauto
  | runBut i set =>
      simp only [results]
      rw [mem_map_advance (butLength_le _ _ _)]
      refine exists_congr fun taken => and_congr_right fun split => and_congr_right fun _ => ?_
      rw [split, Ways]
      simp
  | word letters same => exact results_word_or same letters cursor final
  | seq first second ihFirst ihSecond =>
      rw [results, List.mem_flatMap]
      constructor
      · rintro ⟨middle, memFirst, memSecond⟩
        rcases ihFirst.mp memFirst with ⟨left, split, prevLeft, waysLeft⟩
        rcases ihSecond.mp memSecond with ⟨right, split', prevRight, waysRight⟩
        rw [split'] at split waysLeft
        rw [prevLeft] at prevRight waysRight
        refine ⟨left ++ right, by rw [split, List.append_assoc], by simp [prevRight], ?_⟩
        exact ⟨left, right, middle.groups, rfl, waysLeft, waysRight⟩
      · rintro ⟨taken, split, prevTaken, left, right, middle, rfl, waysLeft, waysRight⟩
        rw [List.append_assoc] at split
        rw [lastChar_append] at prevTaken
        refine ⟨⟨lastChar cursor.prev left, right ++ final.rest, middle⟩, ?_, ?_⟩
        · exact ihFirst.mpr ⟨left, split, rfl, waysLeft⟩
        · exact ihSecond.mpr ⟨right, rfl, prevTaken, waysRight⟩
  | alt first second ihFirst ihSecond =>
      rw [results, List.mem_append, ihFirst, ihSecond]
      simp only [Ways, ← exists_or, ← and_or_left]
  | group i inner ih =>
      rw [results, List.mem_map]
      constructor
      · rintro ⟨inside, mem, rfl⟩
        rcases ih.mp mem with ⟨taken, split, prevTaken, ways⟩
        refine ⟨taken, split, prevTaken, inside.groups, ways, ?_⟩
        simp only [split, take_sub_length]
      · rintro ⟨taken, split, prevTaken, inside, ways, groups⟩
        refine ⟨⟨final.prev, final.rest, inside⟩, ih.mpr ⟨taken, split, prevTaken, ways⟩, ?_⟩
        rcases final with ⟨prev, rest, groups'⟩
        dsimp only at split groups ⊢
        rw [split, take_sub_length, groups]
  | backref i same => exact results_word_or same _ cursor final
  | lineStart =>
      rcases cursor with ⟨prev, text, groups⟩
      rcases final with ⟨prev', rest, groups'⟩
      rcases prev with _ | c
      · simp only [results, List.mem_singleton, Cursor.mk.injEq, Ways]
        constructor
        · rintro ⟨rfl, rfl, rfl⟩
          exact ⟨[], rfl, rfl, rfl, by simp, rfl⟩
        · rintro ⟨taken, split, rfl, rfl, -, rfl⟩
          exact ⟨rfl, split.symm, rfl⟩
      · by_cases newline : c = '\n'
        · simp only [results, newline, if_true, List.mem_singleton, Cursor.mk.injEq, Ways]
          constructor
          · rintro ⟨rfl, rfl, rfl⟩
            exact ⟨[], rfl, rfl, rfl, by simp, rfl⟩
          · rintro ⟨taken, split, rfl, rfl, -, rfl⟩
            exact ⟨rfl, split.symm, rfl⟩
        · simp only [results, newline, if_false, List.not_mem_nil, Ways, false_iff]
          rintro ⟨taken, -, -, -, breaks, -⟩
          exact newline (breaks c rfl)
  | boundary isWord =>
      rcases cursor with ⟨prev, text, groups⟩
      rcases final with ⟨prev', rest, groups'⟩
      simp only [results, Ways]
      split_ifs with differs
      · simp only [bne_iff_ne] at differs
        simp only [List.mem_singleton, Cursor.mk.injEq]
        constructor
        · rintro ⟨rfl, rfl, rfl⟩
          exact ⟨[], rfl, rfl, rfl, differs, rfl⟩
        · rintro ⟨taken, split, rfl, rfl, -, rfl⟩
          exact ⟨rfl, split.symm, rfl⟩
      · simp only [bne_iff_ne, ne_eq, not_not] at differs
        simp only [List.not_mem_nil, false_iff]
        rintro ⟨taken, split, -, rfl, differs', -⟩
        rw [List.nil_append] at split
        rw [split] at differs
        exact differs' differs

section Combinators

variable {set : Char → Bool} {groups' : ℕ → List α}

theorem ways_one :
    Ways (.one set) prev groups taken rest groups' ↔
      (∃ glyph, set (char glyph) = true ∧ taken = [glyph]) ∧ groups' = groups := by
  simp only [Expr.one, Ways, Option.mem_def, Option.some.injEq, forall_eq']
  constructor
  · rintro ⟨inSet, least, most, same⟩
    rcases List.length_eq_one_iff.mp (Nat.le_antisymm most least) with ⟨glyph, rfl⟩
    exact ⟨⟨glyph, inSet glyph (List.mem_singleton_self _), rfl⟩, same⟩
  · rintro ⟨⟨glyph, inSet, rfl⟩, same⟩
    exact ⟨by simpa using inSet, Nat.le_refl 1, Nat.le_refl 1, same⟩

theorem ways_opt :
    Ways (.opt set) prev groups taken rest groups' ↔
      (taken = [] ∨ ∃ glyph, set (char glyph) = true ∧ taken = [glyph]) ∧ groups' = groups := by
  simp only [Expr.opt, Ways, Option.mem_def, Option.some.injEq, forall_eq']
  constructor
  · rintro ⟨inSet, -, most, same⟩
    rcases taken with _ | ⟨glyph, _ | ⟨second, taken⟩⟩
    · exact ⟨.inl rfl, same⟩
    · exact ⟨.inr ⟨glyph, inSet glyph (List.mem_singleton_self _), rfl⟩, same⟩
    · simp at most
  · rintro ⟨rfl | ⟨glyph, inSet, rfl⟩, same⟩
    · exact ⟨by simp, Nat.le_refl 0, by simp, same⟩
    · exact ⟨by simpa using inSet, Nat.zero_le 1, Nat.le_refl 1, same⟩

theorem ways_some :
    Ways (.some set) prev groups taken rest groups' ↔
      ((∀ glyph ∈ taken, set (char glyph) = true) ∧ taken ≠ []) ∧ groups' = groups := by
  simp [Expr.some, Ways, ← List.length_pos_iff, Nat.succ_le_iff, and_assoc]

end Combinators

theorem ways_oneOf {same : Char → Char → Bool} {word : List Char} {words : List (List Char)}
    {groups' : ℕ → List α} :
    Ways (.oneOf same word words) prev groups taken rest groups' ↔
      (∃ letters ∈ word :: words, Spells same letters taken) ∧ groups' = groups := by
  induction words generalizing word with
  | nil => simp [Expr.oneOf, Ways]
  | cons next words ih =>
      rw [Expr.oneOf, Ways, ih]
      simp only [Ways, List.exists_mem_cons_iff]
      tauto

theorem matchAt_some {text : List α} (found : matchAt expr prev text = some final) :
    ∃ taken, text = taken ++ final.rest ∧ final.prev = lastChar prev taken ∧
      Ways expr prev (fun _ => []) taken final.rest final.groups :=
  mem_results_iff.mp (List.mem_of_head? found)

theorem matchAt_none_iff {text : List α} :
    matchAt expr prev text = none ↔
      ∀ taken rest groups, text = taken ++ rest →
        ¬ Ways expr prev (fun _ => []) taken rest groups := by
  rw [matchAt, List.head?_eq_none_iff, List.eq_nil_iff_forall_not_mem]
  constructor
  · intro none taken rest groups split ways
    exact none ⟨lastChar prev taken, rest, groups⟩
      (mem_results_iff.mpr ⟨taken, split, rfl, ways⟩)
  · intro none final mem
    rcases mem_results_iff.mp mem with ⟨taken, split, -, ways⟩
    exact none taken final.rest final.groups split ways

end Ways

section Substitution

variable {expr : Expr} {template : List Part} {prev : Option Char} {taken rest : List α}

/-- The expression matches no empty text. -/
def Consumes (α : Type) [Glyph α] (expr : Expr) : Prop :=
  ∀ (prev : Option Char) (rest : List α) (groups : ℕ → List α),
    ¬ Ways expr prev (fun _ => []) [] rest groups

theorem subFrom_skip (prev : Option Char) (taken rest : List α) :
    subFrom expr template prev taken.length (taken ++ rest) =
      subFrom expr template (lastChar prev taken) 0 rest := by
  induction taken generalizing prev with
  | nil => rfl
  | cons glyph taken ih =>
      rw [List.length_cons, List.cons_append, subFrom, lastChar_cons]
      exact ih _

theorem subFrom_copy {glyph : α} (none : matchAt expr prev (glyph :: rest) = none) :
    subFrom expr template prev 0 (glyph :: rest) =
      glyph :: subFrom expr template (some (char glyph)) 0 rest := by
  rw [subFrom, none]

theorem subFrom_replace {groups : ℕ → List α} {reached : Option Char} (nonempty : taken ≠ [])
    (found : matchAt expr prev (taken ++ rest) = some ⟨reached, rest, groups⟩) :
    subFrom expr template prev 0 (taken ++ rest) =
      expand groups template ++ subFrom expr template (lastChar prev taken) 0 rest := by
  rcases taken with _ | ⟨glyph, taken⟩
  · exact absurd rfl nonempty
  · rw [List.cons_append] at found ⊢
    have shorter : rest.length ≤ (taken ++ rest).length := by
      rw [List.length_append]
      omega
    have skipped : (taken ++ rest).length - rest.length = taken.length := by
      rw [List.length_append, Nat.add_sub_cancel]
    rw [subFrom, found]
    dsimp only
    rw [if_pos shorter, skipped, subFrom_skip, lastChar_cons]

theorem findFrom_skip (prev : Option Char) (taken rest : List α) :
    findFrom expr prev taken.length (taken ++ rest) =
      findFrom expr (lastChar prev taken) 0 rest := by
  induction taken generalizing prev with
  | nil => rfl
  | cons glyph taken ih =>
      rw [List.length_cons, List.cons_append, findFrom, lastChar_cons]
      exact ih _

theorem findFrom_found {groups : ℕ → List α} (reached : Option Char) (nonempty : taken ≠ [])
    (found : matchAt expr prev (taken ++ rest) = some ⟨reached, rest, groups⟩) :
    findFrom expr prev 0 (taken ++ rest) =
      groups :: findFrom expr (lastChar prev taken) 0 rest := by
  rcases taken with _ | ⟨glyph, taken⟩
  · exact absurd rfl nonempty
  · rw [List.cons_append] at found ⊢
    have shorter : rest.length ≤ (taken ++ rest).length := by
      rw [List.length_append]
      omega
    have skipped : (taken ++ rest).length - rest.length = taken.length := by
      rw [List.length_append, Nat.add_sub_cancel]
    rw [findFrom, found]
    dsimp only
    rw [if_pos shorter, skipped, findFrom_skip, lastChar_cons]

/-- The induction over the places a substitution comes to. -/
theorem subFrom_induction {motive : Option Char → List α → List α → Prop}
    (consumes : Consumes α expr) (nil : ∀ prev, motive prev [] [])
    (copy : ∀ prev glyph rest, matchAt expr prev (glyph :: rest) = none →
      motive (some (char glyph)) rest (subFrom expr template (some (char glyph)) 0 rest) →
      motive prev (glyph :: rest)
        (glyph :: subFrom expr template (some (char glyph)) 0 rest))
    (replace : ∀ prev taken rest groups, taken ≠ [] →
      matchAt expr prev (taken ++ rest) = some ⟨lastChar prev taken, rest, groups⟩ →
      Ways expr prev (fun _ => []) taken rest groups →
      motive (lastChar prev taken) rest
        (subFrom expr template (lastChar prev taken) 0 rest) →
      motive prev (taken ++ rest)
        (expand groups template ++ subFrom expr template (lastChar prev taken) 0 rest))
    (prev : Option Char) (text : List α) :
    motive prev text (subFrom expr template prev 0 text) := by
  induction size : text.length using Nat.strong_induction_on generalizing prev text with
  | _ size' ih =>
      subst size
      rcases text with _ | ⟨glyph, rest⟩
      · exact nil prev
      · cases found : matchAt expr prev (glyph :: rest) with
        | none =>
            rw [subFrom_copy found]
            exact copy prev glyph rest found (ih rest.length (by simp) _ _ rfl)
        | some final =>
            rcases matchAt_some found with ⟨taken, split, last, ways⟩
            rcases final with ⟨prev', rest', groups⟩
            dsimp only at split last ways
            subst last
            have nonempty : taken ≠ [] := by
              rintro rfl
              exact consumes _ _ _ ways
            rw [split] at found ⊢
            rw [subFrom_replace nonempty found]
            refine replace prev taken rest' groups nonempty found ways (ih _ ?_ _ _ rfl)
            rw [split, List.length_append]
            have positive := List.length_pos_iff.mpr nonempty
            omega

/-- Behind `front` the substitution finds the match `taken`. -/
inductive Finds (expr : Expr) : Option Char → List α → List α → List α → Prop where
  | here (prev : Option Char) (taken rest : List α) (groups : ℕ → List α) (nonempty : taken ≠ [])
      (found : matchAt expr prev (taken ++ rest) = some ⟨lastChar prev taken, rest, groups⟩) :
      Finds expr prev [] taken rest
  | copy (prev : Option Char) (glyph : α) (front taken rest : List α)
      (unmatched : matchAt expr prev (glyph :: (front ++ (taken ++ rest))) = none)
      (finds : Finds expr (some (char glyph)) front taken rest) :
      Finds expr prev (glyph :: front) taken rest
  | pass (prev : Option Char) (left front taken rest : List α) (groups : ℕ → List α)
      (nonempty : left ≠ [])
      (found : matchAt expr prev (left ++ (front ++ (taken ++ rest))) =
        some ⟨lastChar prev left, front ++ (taken ++ rest), groups⟩)
      (finds : Finds expr (lastChar prev left) front taken rest) :
      Finds expr prev (left ++ front) taken rest

/-- A part of the text in which no match starts is copied. -/
theorem subFrom_append_of_silent (left right : List α) (prev : Option Char)
    (silent : ∀ front glyph back, left = front ++ glyph :: back →
      matchAt expr (lastChar prev front) (glyph :: (back ++ right)) = none) :
    subFrom expr template prev 0 (left ++ right) =
      left ++ subFrom expr template (lastChar prev left) 0 right := by
  induction left generalizing prev with
  | nil => rfl
  | cons glyph left ih =>
      have unmatched : matchAt expr prev (glyph :: (left ++ right)) = none :=
        silent [] glyph left rfl
      rw [List.cons_append, subFrom_copy unmatched, List.cons_append, lastChar_cons]
      congr 1
      refine ih (some (char glyph)) ?_
      intro front glyph' back split
      exact silent (glyph :: front) glyph' back (by rw [split]; rfl)

end Substitution

section Search

variable {expr : Expr} {prev : Option Char} {text : List α}

theorem search_of_matchAt {final : Cursor α} (found : matchAt expr prev text = some final) :
    search expr prev text = some ([], final) := by
  cases text with
  | nil => rw [search, found, Option.map_some]
  | cons glyph text => rw [search, found]

/-- A part of the text in which no match starts is passed over. -/
theorem search_append_of_silent (left right : List α) (prev : Option Char)
    (silent : ∀ front glyph back, left = front ++ glyph :: back →
      matchAt expr (lastChar prev front) (glyph :: (back ++ right)) = none) :
    search expr prev (left ++ right) =
      (search expr (lastChar prev left) right).map fun found => (left ++ found.1, found.2) := by
  induction left generalizing prev with
  | nil => simp
  | cons glyph left ih =>
      have unmatched : matchAt expr prev (glyph :: (left ++ right)) = none :=
        silent [] glyph left rfl
      have shifted := ih (some (char glyph)) (by
        intro front glyph' back split
        exact silent (glyph :: front) glyph' back (by rw [split]; rfl))
      rw [List.cons_append, search, unmatched, shifted, lastChar_cons, Option.map_map]
      rfl

theorem matchAt_of_search_none (missing : search expr prev text = none) {front back : List α}
    (split : text = front ++ back) : matchAt expr (lastChar prev front) back = none := by
  induction front generalizing prev text with
  | nil =>
      rw [List.nil_append] at split
      subst split
      cases text with
      | nil => simpa [search] using missing
      | cons glyph text =>
          rw [search] at missing
          cases found : matchAt expr prev (glyph :: text) with
          | none => exact found
          | some final =>
              rw [found] at missing
              cases missing
  | cons glyph front ih =>
      subst split
      rw [List.cons_append, search] at missing
      cases found : matchAt expr prev (glyph :: (front ++ back)) with
      | none =>
          rw [found, Option.map_eq_none_iff] at missing
          exact ih missing rfl
      | some final =>
          rw [found] at missing
          cases missing

end Search

section Origin

variable {expr : Expr} {template : List Part} {prev : Option Char} {taken rest : List α}
  {groups groups' : ℕ → List α}

/-- The groups hold glyphs of the match. -/
theorem Ways.mem_groups (ways : Ways expr prev groups taken rest groups') {i : ℕ} {glyph : α}
    (mem : glyph ∈ groups' i) : glyph ∈ groups i ∨ glyph ∈ taken := by
  induction expr generalizing prev groups taken rest groups' with
  | run => exact .inl (ways.2.2.2 ▸ mem)
  | runBut => exact .inl (ways.2 ▸ mem)
  | word => exact .inl (ways.2 ▸ mem)
  | seq first second ihFirst ihSecond =>
      rcases ways with ⟨left, right, middle, rfl, waysFirst, waysSecond⟩
      rcases ihSecond waysSecond mem with inMiddle | inRight
      · rcases ihFirst waysFirst inMiddle with inGroups | inLeft
        · exact .inl inGroups
        · exact .inr (List.mem_append_left _ inLeft)
      · exact .inr (List.mem_append_right _ inRight)
  | alt first second ihFirst ihSecond =>
      rcases ways with ways | ways
      · exact ihFirst ways mem
      · exact ihSecond ways mem
  | group j inner ih =>
      rcases ways with ⟨inside, ways, rfl⟩
      by_cases same : i = j
      · subst same
        rw [Function.update_self] at mem
        exact .inr mem
      · rw [Function.update_of_ne same] at mem
        exact ih ways mem
  | backref => exact .inl (ways.2 ▸ mem)
  | lineStart => exact .inl (ways.2.2 ▸ mem)
  | boundary => exact .inl (ways.2.2 ▸ mem)

theorem mem_expand (ways : Ways expr prev (fun _ => []) taken rest groups) {glyph : α}
    (mem : glyph ∈ expand groups template) : glyph ∈ taken ∨ ∃ c, glyph = ofChar c := by
  rw [expand, List.mem_flatMap] at mem
  rcases mem with ⟨part, -, mem⟩
  cases part with
  | literal text =>
      rcases List.mem_map.mp mem with ⟨c, -, rfl⟩
      exact .inr ⟨c, rfl⟩
  | ref i =>
      rcases ways.mem_groups mem with nothing | inTaken
      · exact absurd nothing List.not_mem_nil
      · exact .inl inTaken

/-- A glyph of the outcome is a glyph of the text or of the replacement. -/
theorem mem_subFrom (consumes : Consumes α expr) {text : List α} {glyph : α}
    (mem : glyph ∈ subFrom expr template prev 0 text) :
    glyph ∈ text ∨ ∃ c, glyph = ofChar c := by
  revert mem
  refine subFrom_induction
    (motive := fun _ text out => glyph ∈ out → glyph ∈ text ∨ ∃ c, glyph = ofChar c)
    consumes ?_ ?_ ?_ prev text
  · intro _ nothing
    exact absurd nothing List.not_mem_nil
  · intro _ head rest _ ih mem
    rcases List.mem_cons.mp mem with rfl | mem
    · exact .inl (List.mem_cons_self ..)
    · exact (ih mem).imp_left (List.mem_cons_of_mem _)
  · intro _ taken rest groups _ _ ways ih mem
    rcases List.mem_append.mp mem with inExpand | inRest
    · exact (mem_expand ways inExpand).imp_left (List.mem_append_left _)
    · exact (ih inRest).imp_left (List.mem_append_right _)

/-- The substitution comes to a match it finds, and what it makes of the text before comes from
that text. -/
theorem Finds.subFrom {front : List α} (finds : Finds expr prev front taken rest) :
    ∃ written groups, Regex.subFrom expr template prev 0 (front ++ (taken ++ rest)) =
        written ++ Regex.subFrom expr template (lastChar prev front) 0 (taken ++ rest) ∧
      (∀ glyph ∈ written, glyph ∈ front ∨ ∃ c, glyph = ofChar c) ∧ taken ≠ [] ∧
      matchAt expr (lastChar prev front) (taken ++ rest) =
        some ⟨lastChar (lastChar prev front) taken, rest, groups⟩ := by
  induction finds with
  | here prev taken rest groups nonempty found =>
      exact ⟨[], groups, rfl, by simp, nonempty, found⟩
  | copy prev glyph front taken rest unmatched finds ih =>
      rcases ih with ⟨written, groups, arrives, origin, found⟩
      refine ⟨glyph :: written, groups, ?_, ?_, found⟩
      · rw [List.cons_append, subFrom_copy unmatched, arrives, lastChar_cons, List.cons_append]
      · rw [List.forall_mem_cons]
        exact ⟨.inl (List.mem_cons_self ..), fun glyph mem =>
          (origin glyph mem).imp_left (List.mem_cons_of_mem _)⟩
  | pass prev left front taken rest groups nonempty found finds ih =>
      rcases ih with ⟨written, groups', arrives, origin, nonempty', found'⟩
      refine ⟨expand groups template ++ written, groups', ?_, ?_, nonempty',
        by rwa [lastChar_append]⟩
      · rw [List.append_assoc, subFrom_replace nonempty found, arrives, lastChar_append,
          List.append_assoc]
      · rcases matchAt_some found with ⟨taken', split, -, ways⟩
        rw [List.append_cancel_right_eq] at split
        rw [← split] at ways
        intro glyph mem
        rcases List.mem_append.mp mem with inExpand | inWritten
        · exact (mem_expand ways inExpand).imp_left (List.mem_append_left _)
        · exact (origin glyph inWritten).imp_left (List.mem_append_right _)

end Origin

section Order

variable {first second : Expr} {cursor middle final : Cursor α} {prev : Option Char}
  {groups : ℕ → List α} {taken rest : List α} {set : Char → Bool}

/-- If the first way of each part leads on, it is the first way of the whole. -/
theorem head?_results_seq (middle : Cursor α)
    (left : (results first cursor).head? = some middle)
    (right : (results second middle).head? = some final) :
    (results (.seq first second) cursor).head? = some final := by
  rcases List.head?_eq_some_iff.mp left with ⟨others, ways⟩
  rw [results, ways, List.flatMap_cons, List.head?_append, right]
  rfl

/-- The first way of the whole is the first way of the second part behind some way of the
first. -/
theorem exists_head?_results_seq (whole : (results (.seq first second) cursor).head? = some final) :
    ∃ middle ∈ results first cursor, (results second middle).head? = some final := by
  rw [results] at whole
  generalize results first cursor = ways at whole ⊢
  induction ways with
  | nil => cases whole
  | cons middle others ih =>
      rw [List.flatMap_cons, List.head?_append] at whole
      cases here : (results second middle).head? with
      | none =>
          rw [here, Option.none_or] at whole
          rcases ih whole with ⟨middle', mem, last⟩
          exact ⟨middle', List.mem_cons_of_mem _ mem, last⟩
      | some final' =>
          rw [here, Option.some_or] at whole
          exact ⟨middle, List.mem_cons_self .., here.trans whole⟩

theorem head?_results_group {i : ℕ} {groups' : ℕ → List α}
    (inner : (results first ⟨prev, taken ++ rest, groups⟩).head? =
      some ⟨lastChar prev taken, rest, groups'⟩) :
    (results (.group i first) ⟨prev, taken ++ rest, groups⟩).head? =
      some ⟨lastChar prev taken, rest, Function.update groups' i taken⟩ := by
  rw [results, List.head?_map, inner, Option.map_some]
  dsimp only
  rw [take_sub_length]

/-- A greedy run first takes all it can. -/
theorem head?_results_many (inSet : ∀ glyph ∈ taken, set (char glyph) = true)
    (ends : ∀ glyph ∈ rest.head?, set (char glyph) = false) {least : ℕ}
    (enough : least ≤ taken.length) :
    (results (.run set least none true) ⟨prev, taken ++ rest, groups⟩).head? =
      some ⟨lastChar prev taken, rest, groups⟩ := by
  have available : ((taken ++ rest).takeWhile fun glyph => set (char glyph)).length =
      taken.length := by
    rw [List.takeWhile_append_of_pos (by simpa using inSet)]
    rcases rest with _ | ⟨glyph, rest⟩
    · simp
    · have out := ends glyph rfl
      simp [out]
  simp only [results, available, List.head?_map, lengths, if_true, List.range_succ,
    List.filter_append, List.filter_singleton, List.reverse_append]
  simp only [enough, decide_true, cond_true, List.reverse_singleton, List.singleton_append,
    List.head?_cons, Option.map_some, advance_append]

/-- A lazy run first takes as little as it can: the shortest one behind which the rest
matches. -/
theorem head?_results_lazy {i : ℕ} (inSet : ∀ glyph ∈ taken, set (char glyph) = true)
    (shorter : ∀ n < taken.length, results second
      ⟨lastChar prev (taken.take n), taken.drop n ++ rest,
        Function.update groups i (taken.take n)⟩ = [])
    (here : (results second
      ⟨lastChar prev taken, rest, Function.update groups i taken⟩).head? = some final) :
    (results (.seq (.group i (.run set 0 none false)) second)
      ⟨prev, taken ++ rest, groups⟩).head? = some final := by
  have available : ((taken ++ rest).takeWhile fun glyph => set (char glyph)).length + 1 =
      taken.length + (1 + (rest.takeWhile fun glyph => set (char glyph)).length) := by
    rw [List.takeWhile_append_of_pos (by simpa using inSet), List.length_append]
    omega
  have order : ∃ others,
      lengths 0 ((taken ++ rest).takeWhile fun glyph => set (char glyph)).length false =
        List.range taken.length ++ taken.length :: others := by
    rw [lengths, available, List.range_add, List.range_add]
    simp only [Bool.false_eq_true, if_false, Nat.zero_le, decide_true, List.filter_true]
    exact ⟨_, rfl⟩
  rcases order with ⟨others, order⟩
  have cursors (n : ℕ) (within : n ≤ taken.length) :
      (⟨prev, taken ++ rest, groups⟩ : Cursor α).advance n =
        ⟨lastChar prev (taken.take n), taken.drop n ++ rest, groups⟩ := by
    simp [Cursor.advance, List.take_append_of_le_length within,
      List.drop_append_of_le_length within]
  have group (n : ℕ) (within : n ≤ taken.length) :
      (taken ++ rest).take ((taken ++ rest).length - (taken.drop n ++ rest).length) =
        taken.take n := by
    have size : (taken ++ rest).length - (taken.drop n ++ rest).length = n := by
      simp only [List.length_append, List.length_drop]
      omega
    rw [size, List.take_append_of_le_length within]
  rw [results, results, results, order]
  simp only [List.map_append, List.flatMap_append, List.map_map, List.map_cons, List.flatMap_cons]
  have before : (List.range taken.length).flatMap (fun n => results second
      ((fun final : Cursor α => { final with
          groups := Function.update final.groups i
            ((taken ++ rest).take ((taken ++ rest).length - final.rest.length)) })
        ((⟨prev, taken ++ rest, groups⟩ : Cursor α).advance n))) = [] := by
    rw [List.flatMap_eq_nil_iff]
    intro n mem
    have within := List.mem_range.mp mem
    rw [cursors n within.le]
    dsimp only
    rw [group n within.le]
    exact shorter n within
  rw [List.flatMap_map]
  simp only [Function.comp_def]
  rw [before, List.nil_append, List.head?_append, cursors _ le_rfl]
  dsimp only
  rw [group _ le_rfl, List.take_length, List.drop_length, List.nil_append, here, Option.some_or]

theorem head?_rest_of_run {least : ℕ}
    (found : (results (.run set least none true) cursor).head? = some final) :
    ∀ glyph ∈ final.rest.head?, set (char glyph) = false := by
  have split := List.takeWhile_append_dropWhile (p := fun glyph => set (char glyph))
    (l := cursor.rest)
  have ends : ∀ glyph ∈ (cursor.rest.dropWhile fun glyph => set (char glyph)).head?,
      set (char glyph) = false := by
    intro glyph mem
    have stops := List.head?_dropWhile_not (fun glyph => set (char glyph)) cursor.rest
    rw [Option.mem_def.mp mem] at stops
    exact stops
  rcases mem_results_iff.mp (List.mem_of_head? found) with ⟨taken, split', -, inSet, enough, -⟩
  have longest : taken.length ≤
      (cursor.rest.takeWhile fun glyph => set (char glyph)).length := by
    rw [le_length_takeWhile_iff (by rw [split', List.length_append]; omega), split', List.take_left]
    exact inSet
  have inSet' : ∀ glyph ∈ cursor.rest.takeWhile fun glyph => set (char glyph),
      set (char glyph) = true := by
    intro glyph mem
    exact List.mem_takeWhile_imp (p := fun glyph => set (char glyph)) mem
  have first := @head?_results_many _ _ cursor.prev cursor.groups _ _ set inSet' ends least
    (le_trans enough longest)
  rw [split] at first
  rw [Option.some_injective _ (found.symm.trans first)]
  exact ends

/-- An optional glyph is first taken, then left. -/
theorem results_opt_cons {glyph : α} (inSet : set (char glyph) = true) :
    results (.opt set) ⟨prev, glyph :: rest, groups⟩ =
      [⟨some (char glyph), rest, groups⟩, ⟨prev, glyph :: rest, groups⟩] := by
  have available : min ((glyph :: rest).takeWhile fun glyph => set (char glyph)).length 1 = 1 := by
    simp [inSet]
  simp only [Expr.opt, results, available]
  simp [lengths, Cursor.advance, List.range_succ]

theorem head?_results_group_opt {i : ℕ} {glyph : α} (inSet : set (char glyph) = true) :
    (results (.group i (.opt set)) ⟨prev, glyph :: rest, groups⟩).head? =
      some ⟨some (char glyph), rest, Function.update groups i [glyph]⟩ := by
  refine @head?_results_group _ _ _ _ _ [glyph] _ _ _ ?_
  rw [List.singleton_append, results_opt_cons inSet]
  rfl

theorem results_backref_spelled {i : ℕ} {same : Char → Char → Bool}
    (spells : Spells same ((groups i).map char) taken) :
    results (.backref i same) ⟨prev, taken ++ rest, groups⟩ =
      [⟨lastChar prev taken, rest, groups⟩] := by
  have starts : startsWith same ((groups i).map char) (taken ++ rest) = true :=
    (startsWith_iff _ _ _).mpr ⟨_, _, rfl, spells⟩
  simp only [results, starts, if_true]
  rw [← spells.length_eq, advance_append]

/-- A reference to an empty group changes nothing. -/
theorem results_seq_backref_nil {i : ℕ} {same : Char → Char → Bool} {least : ℕ}
    {most : Option ℕ} {greedy : Bool} (empty : cursor.groups i = []) :
    results (.seq (.run set least most greedy) (.backref i same)) cursor =
      results (.run set least most greedy) cursor := by
  have unchanged : ∀ n, results (.backref i same) (cursor.advance n) = [cursor.advance n] := by
    intro n
    have noLetters : ((cursor.advance n).groups i).map char = [] := by
      rw [Cursor.advance, empty, List.map_nil]
    simp only [results, noLetters, startsWith, if_true, List.length_nil]
    simp [Cursor.advance]
  simp only [results] at unchanged ⊢
  rw [List.flatMap_map]
  simp only [unchanged]
  rw [List.map_eq_flatMap]

theorem results_one_cons {glyph : α} (inSet : set (char glyph) = true) :
    results (.one set) ⟨prev, glyph :: rest, groups⟩ = [⟨some (char glyph), rest, groups⟩] := by
  have available : min ((glyph :: rest).takeWhile fun glyph => set (char glyph)).length 1 = 1 := by
    simp [inSet]
  simp only [Expr.one, results, available]
  simp [lengths, Cursor.advance, List.range_succ]

theorem results_run_of_head (ends : ∀ glyph ∈ rest.head?, set (char glyph) = false)
    (most : Option ℕ) :
    results (.run set 0 most true) ⟨prev, rest, groups⟩ = [⟨prev, rest, groups⟩] := by
  have available : (rest.takeWhile fun glyph => set (char glyph)).length = 0 := by
    rcases rest with _ | ⟨glyph, rest⟩
    · rfl
    · have out := ends glyph rfl
      simp [out]
  cases most <;> simp [results, available, lengths, Cursor.advance]

end Order

section Marks

variable {β : Type} [Glyph β] (f : α → β)

/-- The cursor with `f` applied to every glyph. -/
def Cursor.map (cursor : Cursor α) : Cursor β where
  prev := cursor.prev
  rest := cursor.rest.map f
  groups i := (cursor.groups i).map f

variable {f} (chars : ∀ glyph, char (f glyph) = char glyph)

include chars

theorem lastChar_map (prev : Option Char) (taken : List α) :
    lastChar prev (taken.map f) = lastChar prev taken := by
  induction taken generalizing prev with
  | nil => rfl
  | cons glyph taken ih => rw [List.map_cons, lastChar_cons, lastChar_cons, chars, ih]

theorem advance_map (n : ℕ) (cursor : Cursor α) :
    (cursor.map f).advance n = (cursor.advance n).map f := by
  simp only [Cursor.advance, Cursor.map, ← List.map_take, ← List.map_drop, lastChar_map chars]

theorem startsWith_map (same : Char → Char → Bool) (letters : List Char) (text : List α) :
    startsWith same letters (text.map f) = startsWith same letters text := by
  induction letters generalizing text with
  | nil => cases text <;> rfl
  | cons letter letters ih =>
      cases text with
      | nil => rfl
      | cons glyph text => simp only [List.map_cons, startsWith, chars, ih]

theorem butLength_map (avoided : List Char) (set : Char → Bool) (text : List α) :
    butLength avoided set (text.map f) = butLength avoided set text := by
  induction text with
  | nil => rfl
  | cons glyph text ih =>
      have starts := startsWith_map chars (fun a b => a == b) avoided (glyph :: text)
      rw [List.map_cons] at starts ⊢
      simp only [butLength, chars, starts, ih]

theorem map_char_map (text : List α) : (text.map f).map char = text.map char := by
  rw [List.map_map]
  exact List.map_congr_left fun glyph _ => chars glyph

/-- The search sees the characters only. -/
theorem results_map (expr : Expr) (cursor : Cursor α) :
    results expr (cursor.map f) = (results expr cursor).map (Cursor.map f) := by
  induction expr generalizing cursor with
  | run set least most greedy =>
      have available : ((cursor.rest.map f).takeWhile fun glyph => set (char glyph)).length =
          (cursor.rest.takeWhile fun glyph => set (char glyph)).length := by
        rw [List.takeWhile_map, List.length_map]
        simp only [Function.comp_def, chars]
      simp only [results, List.map_map, Function.comp_def, ← advance_map chars]
      rw [Cursor.map, available]
  | runBut i set =>
      simp only [results, List.map_map, Function.comp_def, ← advance_map chars]
      rw [Cursor.map, map_char_map chars, butLength_map chars]
  | word letters same =>
      simp only [results, advance_map chars, apply_ite (List.map (Cursor.map f)), List.map_nil,
        List.map_cons]
      rw [Cursor.map, startsWith_map chars]
  | seq first second ihFirst ihSecond =>
      simp only [results, ihFirst, List.flatMap_map, List.map_flatMap, ihSecond]
  | alt first second ihFirst ihSecond =>
      simp only [results, ihFirst, ihSecond, List.map_append]
  | group i inner ih =>
      simp only [results, ih, List.map_map]
      refine List.map_congr_left fun final _ => ?_
      simp only [Function.comp_def, Cursor.map, List.length_map, ← List.map_take,
        Cursor.mk.injEq, true_and]
      funext j
      by_cases same : j = i
      · subst same
        simp
      · simp [Function.update_of_ne same]
  | backref i same =>
      simp only [results, advance_map chars, apply_ite (List.map (Cursor.map f)), List.map_nil,
        List.map_cons]
      rw [Cursor.map, map_char_map chars, startsWith_map chars]
  | lineStart =>
      rcases cursor with ⟨_ | c, text, groups⟩
      · rfl
      · by_cases newline : c = '\n' <;> simp [results, Cursor.map, newline]
  | boundary isWord =>
      have behind : ((cursor.rest.map f).head?.any fun glyph => isWord (char glyph)) =
          cursor.rest.head?.any fun glyph => isWord (char glyph) := by
        rw [List.head?_map, Option.any_map]
        simp only [chars]
      simp only [results, apply_ite (List.map (Cursor.map f)), List.map_nil, List.map_cons]
      rw [Cursor.map, behind]

variable (literals : ∀ c, f (ofChar c) = ofChar c)

include literals

omit chars in
theorem expand_map (groups : ℕ → List α) (template : List Part) :
    expand (fun i => (groups i).map f) template = (expand groups template).map f := by
  simp only [expand, List.map_flatMap]
  refine List.flatMap_congr fun part _ => ?_
  cases part with
  | literal text => simp [Function.comp_def, literals]
  | ref i => rfl

theorem subFrom_map (expr : Expr) (template : List Part) (prev : Option Char) (skip : ℕ)
    (text : List α) :
    subFrom expr template prev skip (text.map f) =
      (subFrom expr template prev skip text).map f := by
  induction text generalizing prev skip with
  | nil => cases skip <;> rfl
  | cons glyph text ih =>
      cases skip with
      | succ skip =>
          rw [List.map_cons, subFrom, subFrom, chars]
          exact ih _ _
      | zero =>
          have found : matchAt expr prev (f glyph :: text.map f) =
              (matchAt expr prev (glyph :: text)).map (Cursor.map f) := by
            rw [matchAt, matchAt, ← List.head?_map, ← results_map chars]
            rfl
          rw [List.map_cons, subFrom, subFrom, found]
          cases matchAt expr prev (glyph :: text) with
          | none => simp [chars, ih]
          | some final =>
              simp only [Option.map_some, chars, ih, apply_ite (List.map f), List.map_append,
                List.map_cons, Cursor.map, List.length_map, expand_map literals]

/-- Marks on the glyphs do not change a substitution. -/
theorem sub_map (expr : Expr) (template : List Part) (text : List α) :
    sub expr template (text.map f) = (sub expr template text).map f :=
  subFrom_map chars literals expr template none 0 text

end Marks

end Regex
