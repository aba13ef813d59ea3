import Tabular.Proofs.Json.Tokens

/-!
# The grammar of JSON

What a JSON text stands for, by the grammar of the format and apart from any reader.

- `Json.Document`: what texts stand for. Numbers are exact and members are in order.
- `Json.Dialect`: the format, or what is left of it with fewer blanks and numbers.
- `Json.Reads`: a phrase of the grammar in front of the rest of a text.
- `Json.Denotes`: a whole text and what it stands for.
- `Json.Denotes.unique`: **a text stands for one document at most.**
- `Json.Conforming`: readers that give what texts stand for, where readers agree at all.
-/

namespace Tabular

namespace Json

/-- What a JSON text stands for. -/
inductive Document where
  | null
  | bool (b : Bool)
  | number (q : ℚ)
  | text (s : String)
  | array (items : List Document)
  | object (members : List (String × Document))

/-- The characters that may stand between tokens. -/
def IsBlank (c : Char) : Prop := c = ' ' ∨ c = '\n' ∨ c = '\t' ∨ c = '\r'

/-- What counts as a blank and as a number in front of the rest. -/
structure Dialect where
  blank : Char → Prop
  number : List Char → ℚ → List Char → Prop

namespace Dialect

/-- All of the format. -/
def standard : Dialect := ⟨IsBlank, Number⟩

/-- Numbers are written as integers. -/
def integral : Dialect := ⟨IsBlank, Integral⟩

/-- Numbers are written as integers, and no blanks stand between tokens. -/
def compact : Dialect := ⟨fun _ => False, Integral⟩

/-- What one dialect allows, the other allows. -/
structure Within (D D' : Dialect) : Prop where
  blank : ∀ c, D.blank c → D'.blank c
  number : ∀ cs q rest, D.number cs q rest → D'.number cs q rest

theorem compact_within_integral : compact.Within integral := ⟨fun _ => False.elim, fun _ _ _ => id⟩

theorem integral_within_standard : integral.Within standard :=
  ⟨fun _ => id, fun _ _ _ => Integral.number⟩

end Dialect

/-! ## Phrases -/

/-- The phrases of the grammar that are made of phrases. -/
inductive Phrase where
  | value
  /-- A value with blanks around it. -/
  | element
  /-- One element or more, with commas between them. -/
  | elements
  /-- A name, a colon and an element. -/
  | member
  /-- One member or more, with commas between them. -/
  | members

/-- A run of blanks in front of the rest. -/
inductive Blanks (blank : Char → Prop) : List Char → List Char → Prop where
  | nil (rest : List Char) : Blanks blank rest rest
  | cons {c : Char} {cs rest : List Char} : blank c → Blanks blank cs rest →
    Blanks blank (c :: cs) rest

/-- A phrase in front of the rest, in a dialect. -/
inductive Reads (D : Dialect) : Phrase → List Char → Document → List Char → Prop where
  | null (rest : List Char) : Reads D .value ('n' :: 'u' :: 'l' :: 'l' :: rest) .null rest
  | yes (rest : List Char) :
    Reads D .value ('t' :: 'r' :: 'u' :: 'e' :: rest) (.bool true) rest
  | no (rest : List Char) :
    Reads D .value ('f' :: 'a' :: 'l' :: 's' :: 'e' :: rest) (.bool false) rest
  | number {cs rest : List Char} {q : ℚ} : D.number cs q rest →
    Reads D .value cs (.number q) rest
  | text {cs s rest : List Char} : Chars cs s rest →
    Reads D .value ('"' :: cs) (.text (String.ofList s)) rest
  | noArray {cs rest : List Char} : Blanks D.blank cs (']' :: rest) →
    Reads D .value ('[' :: cs) (.array []) rest
  | array {cs rest : List Char} {ds : List Document} :
    Reads D .elements cs (.array ds) (']' :: rest) →
    Reads D .value ('[' :: cs) (.array ds) rest
  | noObject {cs rest : List Char} : Blanks D.blank cs ('\x7d' :: rest) →
    Reads D .value ('\x7b' :: cs) (.object []) rest
  | object {cs rest : List Char} {ms : List (String × Document)} :
    Reads D .members cs (.object ms) ('\x7d' :: rest) →
    Reads D .value ('\x7b' :: cs) (.object ms) rest
  | element {cs inner behind rest : List Char} {d : Document} : Blanks D.blank cs inner →
    Reads D .value inner d behind → Blanks D.blank behind rest →
    Reads D .element cs d rest
  | lastElement {cs rest : List Char} {d : Document} : Reads D .element cs d rest →
    Reads D .elements cs (.array [d]) rest
  | elements {cs more rest : List Char} {d : Document} {ds : List Document} :
    Reads D .element cs d (',' :: more) → Reads D .elements more (.array ds) rest →
    Reads D .elements cs (.array (d :: ds)) rest
  | member {cs quoted behind inner rest : List Char} {k : List Char} {d : Document} :
    Blanks D.blank cs ('"' :: quoted) → Chars quoted k behind →
    Blanks D.blank behind (':' :: inner) → Reads D .element inner d rest →
    Reads D .member cs (.object [(String.ofList k, d)]) rest
  | lastMember {cs rest : List Char} {m : String × Document} :
    Reads D .member cs (.object [m]) rest → Reads D .members cs (.object [m]) rest
  | members {cs more rest : List Char} {m : String × Document} {ms : List (String × Document)} :
    Reads D .member cs (.object [m]) (',' :: more) →
    Reads D .members more (.object ms) rest → Reads D .members cs (.object (m :: ms)) rest

/-- A whole text and what it stands for. -/
def Denotes (D : Dialect) (text : String) (d : Document) : Prop :=
  Reads D .element text.toList d []

/-! ## What is left -/

theorem Blanks.length_le {blank : Char → Prop} {cs rest : List Char} (h : Blanks blank cs rest) :
    rest.length ≤ cs.length := by
  induction h with
  | nil => exact Nat.le_refl _
  | cons _ _ ih => exact Nat.le_succ_of_le ih

theorem Reads.length_le {phrase : Phrase} {cs rest : List Char} {d : Document}
    (h : Reads .integral phrase cs d rest) : rest.length ≤ cs.length := by
  induction h with
  | null | yes | no => simp only [List.length_cons]; omega
  | number hq => exact Integral.length_le hq
  | text hchars => exact Nat.le_succ_of_le hchars.length_le
  | noArray hblanks | noObject hblanks =>
    have hle := hblanks.length_le
    simp only [List.length_cons] at *
    omega
  | array _ ih | object _ ih =>
    simp only [List.length_cons] at *
    omega
  | element hbefore _ hbehind ih => exact (hbehind.length_le.trans ih).trans hbefore.length_le
  | lastElement _ ih | lastMember _ ih => exact ih
  | elements _ _ ih ihmore | members _ _ ih ihmore =>
    simp only [List.length_cons] at *
    omega
  | member hbefore hchars hcolon _ ih =>
    have hbefore := hbefore.length_le
    have hchars := hchars.length_le
    have hcolon := hcolon.length_le
    simp only [List.length_cons] at *
    omega

/-! ## Dialects -/

section

variable {D D' : Dialect} {cs rest : List Char}

theorem Blanks.mono (h : Blanks D.blank cs rest) (hD : D.Within D') : Blanks D'.blank cs rest := by
  induction h with
  | nil rest => exact .nil rest
  | cons hc _ ih => exact .cons (hD.blank _ hc) ih

/-- A dialect reads what a dialect within it reads. -/
theorem Reads.mono {phrase : Phrase} {d : Document} (h : Reads D phrase cs d rest)
    (hD : D.Within D') : Reads D' phrase cs d rest := by
  induction h with
  | null rest => exact .null rest
  | yes rest => exact .yes rest
  | no rest => exact .no rest
  | number hq => exact .number (hD.number _ _ _ hq)
  | text hchars => exact .text hchars
  | noArray hblanks => exact .noArray (hblanks.mono hD)
  | array _ ih => exact .array ih
  | noObject hblanks => exact .noObject (hblanks.mono hD)
  | object _ ih => exact .object ih
  | element hbefore _ hbehind ih => exact .element (hbefore.mono hD) ih (hbehind.mono hD)
  | lastElement _ ih => exact .lastElement ih
  | elements _ _ ih ihmore => exact .elements ih ihmore
  | member hbefore hchars hcolon _ ih =>
    exact .member (hbefore.mono hD) hchars (hcolon.mono hD) ih
  | lastMember _ ih => exact .lastMember ih
  | members _ _ ih ihmore => exact .members ih ihmore

theorem Denotes.mono {text : String} {d : Document} (h : Denotes D text d) (hD : D.Within D') :
    Denotes D' text d := Reads.mono h hD

end

/-! ## One document at most -/

theorem Blanks.unique {cs rest rest' : List Char} (h : Blanks IsBlank cs rest)
    (h' : Blanks IsBlank cs rest') (hrest : ∀ c, rest.head? = some c → ¬ IsBlank c)
    (hrest' : ∀ c, rest'.head? = some c → ¬ IsBlank c) : rest = rest' := by
  induction h with
  | nil =>
    cases h' with
    | nil => rfl
    | cons hc => exact absurd hc (hrest _ rfl)
  | cons hc _ ih =>
    cases h' with
    | nil => exact absurd hc (hrest' _ rfl)
    | cons _ h' => exact ih h' hrest

/-- Blanks end at the first character that is none. -/
theorem Blanks.unique_cons {c c' : Char} {cs rest rest' : List Char}
    (h : Blanks IsBlank cs (c :: rest)) (h' : Blanks IsBlank cs (c' :: rest'))
    (hc : ¬ IsBlank c) (hc' : ¬ IsBlank c') : c = c' ∧ rest = rest' := by
  refine List.cons.inj (h.unique h' ?_ ?_)
  · rintro c ⟨⟩
    exact hc
  · rintro c ⟨⟩
    exact hc'

/-- What comes next does not go on with a phrase. -/
def Phrase.Ends : Phrase → Char → Prop
  | value, c => IsBlank c ∨ c = ',' ∨ c = ']' ∨ c = '\x7d'
  | element, c | member, c => c = ',' ∨ c = ']' ∨ c = '\x7d'
  | elements, c | members, c => c = ']' ∨ c = '\x7d'

/-- The text goes on with nothing that a phrase could go on with. -/
def EndsBefore (phrase : Phrase) (rest : List Char) : Prop :=
  ∀ c, rest.head? = some c → phrase.Ends c

theorem endsBefore_cons {phrase : Phrase} {c : Char} {rest : List Char} (h : phrase.Ends c) :
    EndsBefore phrase (c :: rest) := by
  rintro c ⟨⟩
  exact h

theorem EndsBefore.numberEnds {rest : List Char} (h : EndsBefore .value rest) :
    NumberEnds rest := by
  intro c hc
  rcases h c hc with (rfl | rfl | rfl | rfl) | rfl | rfl | rfl <;> decide

theorem EndsBefore.notBlank {rest : List Char} (h : EndsBefore .element rest) :
    ∀ c, rest.head? = some c → ¬ IsBlank c := by
  unfold IsBlank
  intro c hc
  rcases h c hc with rfl | rfl | rfl <;> decide

theorem EndsBefore.element {rest : List Char} (h : EndsBefore .elements rest) :
    EndsBefore .element rest := fun c hc => .inr (h c hc)

/-- A value is followed by blanks, or by what follows the blanks. -/
theorem Blanks.endsBefore {behind rest : List Char} (h : Blanks IsBlank behind rest)
    (hrest : EndsBefore .element rest) : EndsBefore .value behind := by
  cases h with
  | nil => exact fun c hc => .inr (hrest c hc)
  | cons hblank => exact endsBefore_cons (.inl hblank)

/-- A value begins with a character that is neither a blank nor the end of an array. -/
theorem Reads.head_value {cs rest : List Char} {d : Document}
    (h : Reads .standard .value cs d rest) :
    ∃ c more, cs = c :: more ∧ ¬ IsBlank c ∧ c ≠ ']' := by
  cases h with
  | number hq =>
    cases cs with
    | nil => exact absurd rfl hq.ne_nil
    | cons c cs =>
      refine ⟨c, cs, rfl, ?_, ?_⟩
      · rintro (rfl | rfl | rfl | rfl) <;> exact absurd hq.head (by decide)
      · rintro rfl
        exact absurd hq.head (by decide)
  | _ => exact ⟨_, _, rfl, by simp [IsBlank], by decide⟩

/-- The first element of an array begins where its blanks end, and not with the end of the array. -/
theorem Reads.head_elements {cs rest : List Char} {d : Document}
    (h : Reads .standard .elements cs d rest) :
    ∃ c more, Blanks IsBlank cs (c :: more) ∧ ¬ IsBlank c ∧ c ≠ ']' := by
  have helement : ∀ {d rest}, Reads .standard .element cs d rest →
      ∃ c more, Blanks IsBlank cs (c :: more) ∧ ¬ IsBlank c ∧ c ≠ ']' := by
    intro d rest h
    cases h with
    | element hblanks hvalue =>
      obtain ⟨c, more, rfl, hc, hbracket⟩ := hvalue.head_value
      exact ⟨c, more, hblanks, hc, hbracket⟩
  cases h with
  | lastElement h => exact helement h
  | elements h => exact helement h

/-- The first member of an object begins with its name. -/
theorem Reads.head_members {cs rest : List Char} {d : Document}
    (h : Reads .standard .members cs d rest) : ∃ more, Blanks IsBlank cs ('"' :: more) := by
  have hmember : ∀ {d rest}, Reads .standard .member cs d rest →
      ∃ more, Blanks IsBlank cs ('"' :: more) := by
    intro d rest h
    cases h with
    | member hblanks => exact ⟨_, hblanks⟩
  cases h with
  | lastMember h => exact hmember h
  | members h => exact hmember h

theorem Reads.not_noArray {cs rest rest' : List Char} {d : Document}
    (h : Reads .standard .elements cs d rest) : ¬ Blanks IsBlank cs (']' :: rest') := by
  intro hblanks
  obtain ⟨c, more, hblanks', hc, hbracket⟩ := h.head_elements
  exact hbracket (hblanks'.unique_cons hblanks hc (by simp [IsBlank])).1

theorem Reads.not_noObject {cs rest rest' : List Char} {d : Document}
    (h : Reads .standard .members cs d rest) : ¬ Blanks IsBlank cs ('\x7d' :: rest') := by
  intro hblanks
  obtain ⟨more, hblanks'⟩ := h.head_members
  exact absurd (hblanks'.unique_cons hblanks (by simp [IsBlank]) (by simp [IsBlank])).1 (by decide)

/-- A phrase is read in one way, if what follows does not go on with it. -/
theorem Reads.unique {phrase : Phrase} {cs rest rest' : List Char} {d d' : Document}
    (h : Reads .standard phrase cs d rest) (h' : Reads .standard phrase cs d' rest')
    (hrest : EndsBefore phrase rest) (hrest' : EndsBefore phrase rest') :
    d = d' ∧ rest = rest' := by
  have hnumber : ∀ {c cs q rest}, Number (c :: cs) q rest → c ≠ '-' → c.isDigit = false → False :=
    fun hq hminus hdigit => hq.head.elim hminus (by rw [hdigit]; exact nofun)
  induction h generalizing d' rest' with
  | null =>
    cases h' with
    | null => exact ⟨rfl, rfl⟩
    | number hq => exact (hnumber hq (by decide) rfl).elim
  | yes =>
    cases h' with
    | yes => exact ⟨rfl, rfl⟩
    | number hq => exact (hnumber hq (by decide) rfl).elim
  | no =>
    cases h' with
    | no => exact ⟨rfl, rfl⟩
    | number hq => exact (hnumber hq (by decide) rfl).elim
  | number hq =>
    cases h' with
    | number hq' =>
      obtain ⟨rfl, rfl⟩ := hq.unique hq' hrest.numberEnds hrest'.numberEnds
      exact ⟨rfl, rfl⟩
    | _ => exact (hnumber hq (by decide) rfl).elim
  | text hchars =>
    cases h' with
    | text hchars' =>
      obtain ⟨rfl, rfl⟩ := hchars.unique hchars'
      exact ⟨rfl, rfl⟩
    | number hq => exact (hnumber hq (by decide) rfl).elim
  | noArray hblanks =>
    cases h' with
    | noArray hblanks' =>
      exact ⟨rfl, (hblanks.unique_cons hblanks' (by simp [IsBlank]) (by simp [IsBlank])).2⟩
    | array helements => exact absurd hblanks helements.not_noArray
    | number hq => exact (hnumber hq (by decide) rfl).elim
  | array helements ih =>
    cases h' with
    | noArray hblanks => exact absurd hblanks helements.not_noArray
    | array helements' =>
      obtain ⟨hds, hsame⟩ := ih helements' (endsBefore_cons (.inl rfl)) (endsBefore_cons (.inl rfl))
      exact ⟨hds, (List.cons.inj hsame).2⟩
    | number hq => exact (hnumber hq (by decide) rfl).elim
  | noObject hblanks =>
    cases h' with
    | noObject hblanks' =>
      exact ⟨rfl, (hblanks.unique_cons hblanks' (by simp [IsBlank]) (by simp [IsBlank])).2⟩
    | object hmembers => exact absurd hblanks hmembers.not_noObject
    | number hq => exact (hnumber hq (by decide) rfl).elim
  | object hmembers ih =>
    cases h' with
    | noObject hblanks => exact absurd hblanks hmembers.not_noObject
    | object hmembers' =>
      obtain ⟨hms, hsame⟩ := ih hmembers' (endsBefore_cons (.inr rfl)) (endsBefore_cons (.inr rfl))
      exact ⟨hms, (List.cons.inj hsame).2⟩
    | number hq => exact (hnumber hq (by decide) rfl).elim
  | element hbefore hvalue hbehind ih =>
    cases h' with
    | element hbefore' hvalue' hbehind' =>
      -- both values begin at the first character that is no blank
      obtain ⟨c, more, rfl, hc, -⟩ := hvalue.head_value
      obtain ⟨c', more', rfl, hc', -⟩ := hvalue'.head_value
      obtain ⟨rfl, rfl⟩ := hbefore.unique_cons hbefore' hc hc'
      obtain ⟨rfl, rfl⟩ := ih hvalue' (hbehind.endsBefore hrest) (hbehind'.endsBefore hrest')
      exact ⟨rfl, hbehind.unique hbehind' hrest.notBlank hrest'.notBlank⟩
  | lastElement helement ih =>
    cases h' with
    | lastElement helement' =>
      obtain ⟨rfl, rfl⟩ := ih helement' hrest.element hrest'.element
      exact ⟨rfl, rfl⟩
    | elements helement' =>
      obtain ⟨-, rfl⟩ := ih helement' hrest.element (endsBefore_cons (.inl rfl))
      exact absurd (hrest _ rfl) (by simp [Phrase.Ends])
  | elements helement _ ih ihmore =>
    cases h' with
    | lastElement helement' =>
      obtain ⟨-, rfl⟩ := ih helement' (endsBefore_cons (.inl rfl)) hrest'.element
      exact absurd (hrest' _ rfl) (by simp [Phrase.Ends])
    | elements helement' hmore' =>
      obtain ⟨rfl, hsame⟩ := ih helement' (endsBefore_cons (.inl rfl)) (endsBefore_cons (.inl rfl))
      obtain ⟨-, rfl⟩ := List.cons.inj hsame
      obtain ⟨hds, rfl⟩ := ihmore hmore' hrest hrest'
      exact ⟨by rw [Document.array.inj hds], rfl⟩
  | member hbefore hchars hcolon _ ih =>
    cases h' with
    | member hbefore' hchars' hcolon' helement' =>
      obtain ⟨-, rfl⟩ := hbefore.unique_cons hbefore' (by simp [IsBlank]) (by simp [IsBlank])
      obtain ⟨rfl, rfl⟩ := hchars.unique hchars'
      obtain ⟨-, rfl⟩ := hcolon.unique_cons hcolon' (by simp [IsBlank]) (by simp [IsBlank])
      obtain ⟨rfl, rfl⟩ := ih helement' hrest hrest'
      exact ⟨rfl, rfl⟩
  | lastMember hmember ih =>
    cases h' with
    | lastMember hmember' => exact ih hmember' hrest.element hrest'.element
    | members hmember' =>
      obtain ⟨-, rfl⟩ := ih hmember' hrest.element (endsBefore_cons (.inl rfl))
      exact absurd (hrest _ rfl) (by simp [Phrase.Ends])
  | members hmember _ ih ihmore =>
    cases h' with
    | lastMember hmember' =>
      obtain ⟨-, rfl⟩ := ih hmember' (endsBefore_cons (.inl rfl)) hrest'.element
      exact absurd (hrest' _ rfl) (by simp [Phrase.Ends])
    | members hmember' hmore' =>
      obtain ⟨hm, hsame⟩ := ih hmember' (endsBefore_cons (.inl rfl)) (endsBefore_cons (.inl rfl))
      obtain ⟨-, rfl⟩ := List.cons.inj hsame
      obtain ⟨hms, rfl⟩ := ihmore hmore' hrest hrest'
      rw [(List.cons.inj (Document.object.inj hm)).1, Document.object.inj hms]
      exact ⟨rfl, rfl⟩

/-- A text stands for one document at most. -/
theorem Denotes.unique {text : String} {d d' : Document} (h : Denotes .standard text d)
    (h' : Denotes .standard text d') : d = d' :=
  (Reads.unique h h' nofun nofun).1

/-! ## Readers -/

/-- Documents that readers agree on: arrays and objects lie no deeper in each other than said, no
two members have the same name, and numbers are integers of 64 bits. -/
inductive Interoperable : Nat → Document → Prop where
  | null (depth : Nat) : Interoperable depth .null
  | bool (depth : Nat) (b : Bool) : Interoperable depth (.bool b)
  | number (depth : Nat) (n : Int64) : Interoperable depth (.number n.toInt)
  | text (depth : Nat) (s : String) : Interoperable depth (.text s)
  | array {depth : Nat} {ds : List Document} : (∀ d ∈ ds, Interoperable depth d) →
    Interoperable (depth + 1) (.array ds)
  | object {depth : Nat} {ms : List (String × Document)} : (ms.map Prod.fst).Nodup →
    (∀ m ∈ ms, Interoperable depth m.2) → Interoperable (depth + 1) (.object ms)

/-- A reader gives what a text stands for, at least where readers agree and integers are written as
such. -/
def Conforming (depth : Nat) (read : String → Option Document) : Prop :=
  ∀ text d, Denotes .integral text d → Interoperable depth d → read text = some d

/-- There is such a reader, as no text stands for two documents. -/
theorem exists_conforming (depth : Nat) : ∃ read, Conforming depth read := by
  classical
  refine ⟨fun text => if h : ∃ d, Denotes .standard text d then some h.choose else none, ?_⟩
  intro text d h _
  have hd := h.mono Dialect.integral_within_standard
  have hsome : ∃ d, Denotes .standard text d := ⟨d, hd⟩
  show (if h : ∃ d, Denotes .standard text d then some h.choose else none) = some d
  rw [dif_pos hsome, hsome.choose_spec.unique hd]

end Json

end Tabular
