import Asmb8Ikvm.Evidence.Completeness

/-!
# Redacting the files of a run

`redact_file` and the loop of `main`. One `Redactor` goes through all files: what
it leaves has the keys, the nesting and the other values of what was read, every
string is rewritten on its own, and a token means the same value everywhere.
-/

namespace Asmb8Ikvm.Evidence

open PyText Regex Lookaround

/-- A string of a document and the key it stands under. -/
abbrev Leaf := Option (List Char) × List Char

section Strings

mutual

/-- The strings of a document, in the order in which they are redacted. -/
def stringsOf : Option (List Char) → Document → List Leaf
  | _, .dict entries => entryStrings entries
  | _, .list items => itemStrings items
  | key, .str text => [(key, text)]
  | _, .scalar _ => []

def itemStrings : List Document → List Leaf
  | [] => []
  | item :: items => stringsOf none item ++ itemStrings items

def entryStrings : List (List Char × Document) → List Leaf
  | [] => []
  | entry :: entries => valueStrings entry ++ entryStrings entries

def valueStrings : List Char × Document → List Leaf
  | (key, value) => stringsOf (some key) value

end

mutual

/-- A document without the texts of its strings. -/
def skeleton : Document → Document
  | .dict entries => .dict (entrySkeletons entries)
  | .list items => .list (itemSkeletons items)
  | .str _ => .str []
  | .scalar value => .scalar value

def itemSkeletons : List Document → List Document
  | [] => []
  | item :: items => skeleton item :: itemSkeletons items

def entrySkeletons : List (List Char × Document) → List (List Char × Document)
  | [] => []
  | entry :: entries => entrySkeleton entry :: entrySkeletons entries

def entrySkeleton : List Char × Document → List Char × Document
  | (key, value) => (key, skeleton value)

end

/-- The number of tokens a run can need. -/
def weight (strings : List Leaf) : ℕ := (strings.map fun leaf => leaf.2.length + 1).sum

end Strings

section Files

/-- A file of the run: what `redact_file` reads, and what it writes. -/
inductive File where
  | empty
  | text (contents : List Char)
  | json (document : Document)

/-- What `redact_file` takes the contents of a file for; `parse` is `json.loads`. -/
def File.read (parse : List Char → Option Document) (original : List Char) : File :=
  if strip original = [] then .empty
  else
    match parse original with
    | none => .text original
    | some document => .json document

def redactFile (table : CharTable) (parse : List Char → Option Document) (original : List Char)
    (redactor : Redactor) : File × Redactor :=
  match File.read parse original with
  | .empty => (.empty, redactor)
  | .text contents =>
      let (text, redactor) := redactText table contents redactor
      (.text text, redactor)
  | .json document =>
      let (redacted, redactor) := redactValue table none document redactor
      (.json redacted, redactor)

/-- The loop of `main`. -/
def redactFiles (table : CharTable) (parse : List Char → Option Document) :
    List (List Char) → Redactor → List File × Redactor
  | [], redactor => ([], redactor)
  | original :: originals, redactor =>
      let (file, redactor) := redactFile table parse original redactor
      let (files, redactor) := redactFiles table parse originals redactor
      (file :: files, redactor)

def File.strings : File → List Leaf
  | .empty => []
  | .text contents => [(none, contents)]
  | .json document => stringsOf none document

def File.skeleton : File → File
  | .empty => .empty
  | .text _ => .text []
  | .json document => .json (Evidence.skeleton document)

end Files

section Runs

variable {table : CharTable} {parse : List Char → Option Document} {redactor : Redactor}
  {tokens tokens' : List ((Category × List Char) × List Char)} {leaf leaf' : Leaf}
  {key : Option (List Char)} {value : List Char}

/-- A string was redacted: a value under an identifying key is replaced as a whole, unless a
pattern has changed it. -/
structure Pseudonymised (table : CharTable) (tokens : List ((Category × List Char) × List Char))
    (leaf leaf' : Leaf) : Prop where
  key : leaf'.1 = leaf.1
  exempt : isExempt leaf.1 = true → leaf'.2 = leaf.2
  parts : isExempt leaf.1 = false → Filled tokens (pieces leaf.2) leaf'.2 ∨
    ∃ category, identifyingCategory leaf.1 = some category ∧ ((category, leaf.2), leaf'.2) ∈ tokens
  unchanged : isExempt leaf.1 = false → leaf'.2 = leaf.2 →
    identifyingCategory leaf.1 = none ∨ leaf.2 = [] ∨ isToken table leaf.2 = true

theorem Pseudonymised.mono (done : Pseudonymised table tokens leaf leaf')
    (grows : tokens <+: tokens') : Pseudonymised table tokens' leaf leaf' where
  key := done.key
  exempt := done.exempt
  parts present := (done.parts present).imp (·.mono grows)
    fun ⟨category, isCategory, mem⟩ => ⟨category, isCategory, grows.subset mem⟩
  unchanged := done.unchanged

/-- Strings were redacted one after the other. -/
structure Redacts (table : CharTable) (redactor : Redactor) (strings strings' : List Leaf)
    (redactor' : Redactor) : Prop where
  sound : redactor'.Sound
  grows : redactor.tokens <+: redactor'.tokens
  counts : ∀ category, redactor'.counts category ≤ redactor.counts category + weight strings
  leaves : List.Forall₂ (Pseudonymised table redactor'.tokens) strings strings'
  clean : ∀ leaf ∈ strings', isExempt leaf.1 = false → Clean redactor'.tokens leaf.2

theorem Redacts.nil (sound : redactor.Sound) : Redacts table redactor [] [] redactor :=
  ⟨sound, List.prefix_rfl, fun _ => Nat.le_add_right _ _, .nil, fun _ mem => (by cases mem)⟩

theorem weight_append (strings others : List Leaf) :
    weight (strings ++ others) = weight strings + weight others := by
  simp [weight]

theorem Redacts.append {redactor₁ redactor₂ : Redactor}
    {strings strings' others others' : List Leaf}
    (first : Redacts table redactor strings strings' redactor₁)
    (second : Redacts table redactor₁ others others' redactor₂) :
    Redacts table redactor (strings ++ others) (strings' ++ others') redactor₂ where
  sound := second.sound
  grows := first.grows.trans second.grows
  counts category := by
    have := first.counts category
    have := second.counts category
    rw [weight_append]
    omega
  leaves := List.rel_append (first.leaves.imp fun _ _ done => done.mono second.grows) second.leaves
  clean leaf mem present := by
    rcases List.mem_append.mp mem with mem | mem
    · exact (first.clean leaf mem present).mono second.grows
    · exact second.clean leaf mem present

/-- The room that is left behind the first strings. -/
theorem Redacts.room {redactor₁ : Redactor} {strings strings' others : List Leaf}
    (first : Redacts table redactor strings strings' redactor₁)
    (room : ∀ category, redactor.counts category + weight (strings ++ others) < counterLimit)
    (category : Category) : redactor₁.counts category + weight others < counterLimit := by
  have := first.counts category
  have := room category
  rw [weight_append] at this
  omega

/-- A token is clean: nothing matches in it. -/
theorem clean_token {token : List Char} {category : Category} {n : ℕ}
    (isToken : token = tokenText category n) (few : n < counterLimit) : Clean tokens token := by
  have silent : ∀ rule ∈ patterns, ∀ front taken back, token = front ++ (taken ++ back) →
      ¬ Fits rule.2 (lastChar none front) taken back := by
    intro rule mem front taken back split fits
    have nonempty := taken_ne_nil (guarded mem).consumes fits
    have isSuffix : taken ++ back <:+ tokenText category n := ⟨front, by rw [← isToken, split]⟩
    have none := matchLength_token mem few (lastChar none front) [] (by simp [nonempty]) isSuffix
    rw [List.append_nil, matchLength_eq_none_iff] at none
    exact none taken back rfl fits
  refine ⟨fun rule mem _ front taken back split fits => ?_,
    fun front taken back split found _ => ?_⟩
  · exact absurd fits (silent rule mem front taken back split)
  · have fits := (matchLength_eq_some found).2
    rw [List.take_left, List.drop_left] at fits
    exact absurd fits (silent (.fqdn, fqdnRe) (by simp [patterns]) front taken back split)

theorem ready_redactText (sound : redactor.Sound)
    (room : ∀ category, redactor.counts category + value.length < counterLimit) :
    Ready (redactText table value redactor).2 (pieces value)
      (redactText table value redactor).1 := by
  have passed := passed_redactText table sound room
  refine ⟨passed.sound, fun category => ?_, passed.filled⟩
  have spent := passed.counts category
  rw [kept_map_some] at spent
  exact spent.trans_lt (room category)

theorem weight_singleton (leaf : Leaf) : weight [leaf] = leaf.2.length + 1 := by
  simp [weight]

/-- What `redact_text` returns is taken as it is. -/
theorem redacts_text (sound : redactor.Sound) (exempt : isExempt key = false)
    (room : ∀ category, redactor.counts category + value.length < counterLimit)
    (unchanged : (redactText table value redactor).1 = value →
      identifyingCategory key = none ∨ value = [] ∨ isToken table value = true) :
    Redacts table redactor [(key, value)] [(key, (redactText table value redactor).1)]
      (redactText table value redactor).2 := by
  have passed := passed_redactText table sound room
  refine ⟨passed.sound, passed.grows, fun category => ?_, .cons ?_ .nil, fun leaf mem _ => ?_⟩
  · have spent := passed.counts category
    rw [kept_map_some] at spent
    rw [weight_singleton]
    dsimp only
    omega
  · exact ⟨rfl, fun present => (by rw [exempt] at present; cases present),
      fun _ => .inl passed.filled, fun _ => unchanged⟩
  · rw [List.mem_singleton.mp mem]
    exact (ready_redactText sound room).clean

/-- A value under an identifying key in which no pattern matched. -/
theorem redacts_token {category : Category} (sound : redactor.Sound) (exempt : isExempt key = false)
    (room : ∀ category, redactor.counts category + weight [(key, value)] < counterLimit)
    (isCategory : identifyingCategory key = some category)
    (notToken : isToken table value = false) :
    Redacts table redactor [(key, value)]
      [(key, (tokenFor category value (redactText table value redactor).2).1)]
      (tokenFor category value (redactText table value redactor).2).2 := by
  have room' (category : Category) : redactor.counts category + value.length < counterLimit := by
    have := room category
    rw [weight_singleton] at this
    dsimp only at this
    omega
  have passed := passed_redactText table sound room'
  have issues := Redactor.issues_tokenFor passed.sound category value
  rcases issues.sound.numbered _ issues.mem with ⟨n, counted, isTokenText⟩
  have few (category' : Category) :
      (tokenFor category value (redactText table value redactor).2).2.counts category' ≤
        redactor.counts category' + weight [(key, value)] := by
    have spent := passed.counts category'
    have := issues.counts category'
    rw [kept_map_some] at spent
    rw [weight_singleton]
    dsimp only
    omega
  refine ⟨issues.sound, passed.grows.trans issues.grows, few, .cons ?_ .nil, fun leaf mem _ => ?_⟩
  · refine ⟨rfl, fun present => (by rw [exempt] at present; cases present),
      fun _ => .inr ⟨category, isCategory, issues.mem⟩, fun _ same => ?_⟩
    have text : value = tokenText category n := same.symm.trans isTokenText
    rw [text, isToken_tokenText] at notToken
    cases notToken
  · obtain rfl := List.mem_singleton.mp mem
    exact clean_token isTokenText ((counted.trans (few category)).trans_lt (room category))

theorem redacts_string (sound : redactor.Sound)
    (room : ∀ category, redactor.counts category + weight [(key, value)] < counterLimit) :
    Redacts table redactor [(key, value)] [(key, (redactString table key value redactor).1)]
      (redactString table key value redactor).2 := by
  have room' (category : Category) : redactor.counts category + value.length < counterLimit := by
    have := room category
    rw [weight_singleton] at this
    dsimp only at this
    omega
  rw [redactString]
  cases exempt : isExempt key with
  | true =>
      rw [if_pos rfl]
      have impossible {P : Prop} (present : isExempt key = false) : P := by
        rw [exempt] at present
        cases present
      refine ⟨sound, List.prefix_rfl, fun _ => Nat.le_add_right _ _, .cons ?_ .nil,
        fun leaf mem => ?_⟩
      · exact ⟨rfl, fun _ => rfl, impossible, fun present => impossible present⟩
      · rw [List.mem_singleton.mp mem]
        exact impossible
  | false =>
      rw [if_neg (by decide)]
      dsimp only
      by_cases changed : (redactText table value redactor).1 ≠ value
      · rw [if_pos changed]
        exact redacts_text sound exempt room' fun same => absurd same changed
      · rw [if_neg changed]
        by_cases identifies : value ≠ [] ∧ isToken table value = false
        · rw [if_pos identifies]
          cases isCategory : identifyingCategory key with
          | none => exact redacts_text sound exempt room' fun _ => .inl isCategory
          | some category => exact redacts_token sound exempt room isCategory identifies.2
        · rw [if_neg identifies]
          refine redacts_text sound exempt room' fun _ => .inr ?_
          rw [not_and_or, not_not] at identifies
          exact identifies.imp_right fun isToken => by simpa using isToken

mutual

theorem redacts_value (table : CharTable) (key : Option (List Char)) (document : Document)
    {redactor : Redactor}
    (sound : redactor.Sound)
    (room : ∀ category, redactor.counts category + weight (stringsOf key document) < counterLimit) :
    Redacts table redactor (stringsOf key document)
      (stringsOf key (redactValue table key document redactor).1)
      (redactValue table key document redactor).2 := by
  match document with
  | .dict entries => exact redacts_entries table entries sound room
  | .list items => exact redacts_items table items sound room
  | .str text => exact redacts_string sound room
  | .scalar value => exact .nil sound

theorem redacts_items (table : CharTable) (items : List Document) {redactor : Redactor}
    (sound : redactor.Sound)
    (room : ∀ category, redactor.counts category + weight (itemStrings items) < counterLimit) :
    Redacts table redactor (itemStrings items) (itemStrings (redactItems table items redactor).1)
      (redactItems table items redactor).2 := by
  match items with
  | [] => exact .nil sound
  | item :: items =>
      have first := redacts_value table none item sound fun category => by
        have := room category
        rw [itemStrings, weight_append] at this
        omega
      exact first.append (redacts_items table items first.sound (first.room room))

theorem redacts_entries (table : CharTable) (entries : List (List Char × Document))
    {redactor : Redactor}
    (sound : redactor.Sound)
    (room : ∀ category, redactor.counts category + weight (entryStrings entries) < counterLimit) :
    Redacts table redactor (entryStrings entries)
      (entryStrings (redactEntries table entries redactor).1)
      (redactEntries table entries redactor).2 := by
  match entries with
  | [] => exact .nil sound
  | entry :: entries =>
      have first := redacts_entry table entry sound fun category => by
        have := room category
        rw [entryStrings, weight_append] at this
        omega
      exact first.append (redacts_entries table entries first.sound (first.room room))

theorem redacts_entry (table : CharTable) (entry : List Char × Document) {redactor : Redactor}
    (sound : redactor.Sound)
    (room : ∀ category, redactor.counts category + weight (valueStrings entry) < counterLimit) :
    Redacts table redactor (valueStrings entry) (valueStrings (redactEntry table entry redactor).1)
      (redactEntry table entry redactor).2 := by
  match entry with
  | (key, value) => exact redacts_value table (some key) value sound room

end

mutual

theorem skeleton_redactValue (table : CharTable) (key : Option (List Char)) (document : Document)
    (redactor : Redactor) :
    skeleton (redactValue table key document redactor).1 = skeleton document := by
  match document with
  | .dict entries => exact congrArg Document.dict (skeleton_redactEntries table entries redactor)
  | .list items => exact congrArg Document.list (skeleton_redactItems table items redactor)
  | .str text => rfl
  | .scalar value => rfl

theorem skeleton_redactItems (table : CharTable) (items : List Document) (redactor : Redactor) :
    itemSkeletons (redactItems table items redactor).1 = itemSkeletons items := by
  match items with
  | [] => rfl
  | item :: items =>
      exact congrArg₂ List.cons (skeleton_redactValue table none item redactor)
        (skeleton_redactItems table items _)

theorem skeleton_redactEntries (table : CharTable) (entries : List (List Char × Document))
    (redactor : Redactor) :
    entrySkeletons (redactEntries table entries redactor).1 = entrySkeletons entries := by
  match entries with
  | [] => rfl
  | entry :: entries =>
      exact congrArg₂ List.cons (skeleton_redactEntry table entry redactor)
        (skeleton_redactEntries table entries _)

theorem skeleton_redactEntry (table : CharTable) (entry : List Char × Document)
    (redactor : Redactor) :
    entrySkeleton (redactEntry table entry redactor).1 = entrySkeleton entry := by
  match entry with
  | (key, value) =>
      exact congrArg (Prod.mk key) (skeleton_redactValue table (some key) value redactor)

end

theorem redacts_file (table : CharTable) (parse : List Char → Option Document)
    (original : List Char) (sound : redactor.Sound)
    (room : ∀ category, redactor.counts category +
      weight (File.read parse original).strings < counterLimit) :
    Redacts table redactor (File.read parse original).strings
      (redactFile table parse original redactor).1.strings
      (redactFile table parse original redactor).2 := by
  rw [redactFile]
  cases isFile : File.read parse original with
  | empty => exact .nil sound
  | text contents =>
      rw [isFile] at room
      refine redacts_text sound rfl (fun category => ?_) fun _ => .inl rfl
      have := room category
      rw [File.strings, weight_singleton] at this
      dsimp only at this
      omega
  | json document =>
      rw [isFile] at room
      exact redacts_value table none document sound room

theorem skeleton_redactFile (original : List Char) :
    (redactFile table parse original redactor).1.skeleton =
      (File.read parse original).skeleton := by
  rw [redactFile]
  cases File.read parse original with
  | empty => rfl
  | text contents => rfl
  | json document => exact congrArg File.json (skeleton_redactValue table none document redactor)

/-- The strings of the files, as they are read. -/
def filesStrings (parse : List Char → Option Document) (originals : List (List Char)) : List Leaf :=
  originals.flatMap fun original => (File.read parse original).strings

theorem redacts_files (table : CharTable) (parse : List Char → Option Document)
    (originals : List (List Char)) (sound : redactor.Sound)
    (room : ∀ category,
      redactor.counts category + weight (filesStrings parse originals) < counterLimit) :
    Redacts table redactor (filesStrings parse originals)
      ((redactFiles table parse originals redactor).1.flatMap File.strings)
      (redactFiles table parse originals redactor).2 := by
  induction originals generalizing redactor with
  | nil => exact .nil sound
  | cons original originals ih =>
      have first := redacts_file table parse original sound fun category => by
        have := room category
        rw [filesStrings, List.flatMap_cons, weight_append] at this
        omega
      exact first.append (ih first.sound (first.room room))

theorem skeleton_redactFiles (originals : List (List Char)) :
    (redactFiles table parse originals redactor).1.map File.skeleton =
      originals.map fun original => (File.read parse original).skeleton := by
  induction originals generalizing redactor with
  | nil => rfl
  | cons original originals ih => exact congrArg₂ List.cons (skeleton_redactFile original) ih

/-- What is written has the keys, the nesting and the other values of what was read; each string
has tokens for the parts that identify something, or is left alone; a token stands for one value
of one category in all files. -/
theorem evidence_pseudonymised (table : CharTable) (parse : List Char → Option Document)
    (originals : List (List Char)) (room : weight (filesStrings parse originals) < counterLimit) :
    let run := redactFiles table parse originals {}
    run.1.map File.skeleton = originals.map (fun original => (File.read parse original).skeleton) ∧
      List.Forall₂ (Pseudonymised table run.2.tokens) (filesStrings parse originals)
        (run.1.flatMap File.strings) ∧
      ∀ call ∈ run.2.issued, ∀ call' ∈ run.2.issued, call.1 = call'.1 ↔ call.2 = call'.2 := by
  intro run
  have redacts := redacts_files table parse originals Redactor.sound_new fun _ => by
    rwa [Nat.zero_add]
  refine ⟨skeleton_redactFiles originals, redacts.leaves, fun call mem call' mem' => ?_⟩
  exact redacts.sound.key_eq_iff (redacts.sound.issued call mem) (redacts.sound.issued call' mem')

theorem evidence_pseudonymised_host :
    let parse : List Char → Option Document := fun _ =>
      some (.dict [(['h', 'o', 's', 't'], .str ['b', 'm', 'c']),
        (['o', 'n'], .scalar (.bool true))])
    let run := redactFiles asciiTable parse [['{', '}'], ['{', '}']] {}
    run.1.map File.skeleton =
        [['{', '}'], ['{', '}']].map (fun original => (File.read parse original).skeleton) ∧
      List.Forall₂ (Pseudonymised asciiTable run.2.tokens)
        (filesStrings parse [['{', '}'], ['{', '}']]) (run.1.flatMap File.strings) ∧
      ∀ call ∈ run.2.issued, ∀ call' ∈ run.2.issued, call.1 = call'.1 ↔ call.2 = call'.2 :=
  evidence_pseudonymised asciiTable _ [['{', '}'], ['{', '}']] (by decide)

/-- In what is written outside the exempt keys, no pattern matches but next to a token. -/
theorem evidence_clean (table : CharTable) (parse : List Char → Option Document)
    (originals : List (List Char)) (room : weight (filesStrings parse originals) < counterLimit) :
    let run := redactFiles table parse originals {}
    ∀ leaf ∈ run.1.flatMap File.strings, isExempt leaf.1 = false → Clean run.2.tokens leaf.2 := by
  intro run
  have redacts := redacts_files table parse originals Redactor.sound_new fun _ => by
    rwa [Nat.zero_add]
  exact redacts.clean

theorem evidence_clean_address :
    let run := redactFiles asciiTable (fun _ => none) [['1', '.', '1', '.', '1', '.', '1']] {}
    ∀ leaf ∈ run.1.flatMap File.strings, isExempt leaf.1 = false → Clean run.2.tokens leaf.2 :=
  evidence_clean asciiTable (fun _ => none) [['1', '.', '1', '.', '1', '.', '1']] (by decide)

end Runs

end Asmb8Ikvm.Evidence
