import Tabular.Proofs.Json.Grammar

/-!
# What written values stand for

- `Json.StandsFor`: the document of a value. Values with reals in them have none here.
- `Json.StandsFor.denotes`: **the text of a value denotes its document**, with
  no blank between its tokens.
- `Json.chars_escaped`, `Json.integral_signed`: strings and integers are written as they are.
-/

namespace Tabular

namespace Json

/-! ## Strings -/

/-- The number of a control character in hexadecimal digits. -/
theorem hexValue4?_hexDigit {n : Nat} (h : n < 32) :
    hexValue4? '0' '0' (hexDigit (n / 16)) (hexDigit (n % 16)) = some n := by
  revert n
  decide

/-- A character is written as a letter for it, as a number, or as it is. -/
theorem escape_cases (c : Char) :
    (∃ e, unescape? e = some c ∧ escape c = ['\\', e]) ∨
    (c.toNat < 32 ∧
      escape c = ['\\', 'u', '0', '0', hexDigit (c.toNat / 16), hexDigit (c.toNat % 16)]) ∨
    (c ≠ '"' ∧ c ≠ '\\' ∧ 32 ≤ c.toNat ∧ escape c = [c]) := by
  by_cases hletter : c = '"' ∨ c = '\\' ∨ c = '\x08' ∨ c = '\t' ∨ c = '\n' ∨ c = '\x0c' ∨ c = '\r'
  · rcases hletter with rfl | rfl | rfl | rfl | rfl | rfl | rfl <;> exact .inl ⟨_, rfl, rfl⟩
  · simp only [not_or] at hletter
    obtain ⟨hquote, hslash, hb, ht, hn, hf, hr⟩ := hletter
    refine .inr ?_
    rw [escape, if_neg hquote, if_neg hslash, if_neg hb, if_neg ht, if_neg hn, if_neg hf, if_neg hr]
    by_cases hcontrol : c.toNat < 32
    · exact .inl ⟨hcontrol, if_pos hcontrol⟩
    · exact .inr ⟨hquote, hslash, by omega, if_neg hcontrol⟩

/-- However a character is written, it is read as itself. -/
theorem Chars.escaped {cs s rest : List Char} (c : Char) (h : Chars cs s rest) :
    Chars (Json.escape c ++ cs) (c :: s) rest := by
  rcases escape_cases c with ⟨e, he, hc⟩ | ⟨hcontrol, hc⟩ | ⟨hquote, hslash, hplain, hc⟩
  · rw [hc]
    exact .escape he h
  · rw [hc]
    have hhigh : isHighHalf c.toNat = false := by grind [isHighHalf]
    have hlow : isLowHalf c.toNat = false := by grind [isLowHalf]
    have hcode := Chars.code (hexValue4?_hexDigit hcontrol) hhigh hlow h
    rw [Char.ofNat_toNat] at hcode
    exact hcode
  · rw [hc]
    exact .plain hquote hslash hplain h

/-- A string ends at the quote that is written after it. -/
theorem chars_escaped (s rest : List Char) : Chars (s.flatMap escape ++ '"' :: rest) s rest := by
  induction s with
  | nil => exact .close rest
  | cons c s ih =>
    rw [List.flatMap_cons, List.append_assoc]
    exact ih.escaped c

theorem quote_append (s : String) (rest : List Char) :
    quote s ++ rest = '"' :: (s.toList.flatMap escape ++ '"' :: rest) := by
  simp [quote]

/-! ## Numbers -/

theorem whole_decimal (n : Nat) (rest : List Char) : Whole (Text.decimal n ++ rest) n rest := by
  by_cases h : n = 0
  · subst h
    exact .zero rest
  · have hdigits : Digits (Text.decimal n ++ rest) (Text.decimal n) rest :=
      ⟨rfl, Text.decimal_ne_nil n, fun _ hc => Text.isDigit_of_mem_decimal hc⟩
    have hwhole := Whole.digits hdigits (Text.head?_decimal h)
    rw [Text.value_decimal] at hwhole
    exact hwhole

/-- An integer is written as it is. -/
theorem integral_signed (n : Int) (rest : List Char) : Integral (Text.signed n ++ rest) n rest := by
  have hwhole := whole_decimal n.natAbs rest
  unfold Text.signed
  split
  next hneg =>
    have hintegral := Integral.minus hwhole (by omega)
    rw [← Int.cast_natCast, ← Int.cast_neg, show -(n.natAbs : Int) = n by omega] at hintegral
    exact hintegral
  next hnonneg =>
    have hintegral := Integral.plain hwhole
    rw [← Int.cast_natCast, show (n.natAbs : Int) = n by omega] at hintegral
    exact hintegral

/-! ## Values -/

/-- The document of a value. -/
inductive StandsFor : Json → Document → Prop where
  | null : StandsFor .null .null
  | bool (b : Bool) : StandsFor (.bool b) (.bool b)
  | integer (n : Int) : StandsFor (.integer n) (.number n)
  | text (s : String) : StandsFor (.text s) (.text s)
  | noItem : StandsFor (.list []) (.array [])
  | item {v : Json} {d : Document} {vs : List Json} {ds : List Document} : StandsFor v d →
    StandsFor (.list vs) (.array ds) → StandsFor (.list (v :: vs)) (.array (d :: ds))
  | noMember : StandsFor (.object []) (.object [])
  | member {k : String} {v : Json} {d : Document} {ms : List (String × Json)}
    {ds : List (String × Document)} : StandsFor v d → StandsFor (.object ms) (.object ds) →
    StandsFor (.object ((k, v) :: ms)) (.object ((k, d) :: ds))

/-- A document is that of one value. -/
theorem StandsFor.unique {v v' : Json} {d : Document} (h : StandsFor v d) (h' : StandsFor v' d) :
    v = v' := by
  have hinteger : ∀ {q : ℚ} {n : Int} {v' : Json}, StandsFor v' (.number q) → q = n →
      v' = .integer n := by
    intro q n v' h' hq
    cases h' with
    | integer n' => rw [Rat.intCast_inj.mp hq]
  induction h generalizing v' with
  | null => cases h'; rfl
  | bool => cases h'; rfl
  | integer n => exact (hinteger h' rfl).symm
  | text => cases h'; rfl
  | noItem => cases h'; rfl
  | item _ _ ihv ihvs =>
    cases h' with
    | item hv hvs => rw [ihv hv, Json.list.inj (ihvs hvs)]
  | noMember => cases h'; rfl
  | member _ _ ihv ihms =>
    cases h' with
    | member hv hms => rw [ihv hv, Json.object.inj (ihms hms)]

theorem Reads.bare {D : Dialect} {cs rest : List Char} {d : Document}
    (h : Reads D .value cs d rest) : Reads D .element cs d rest := .element (.nil cs) h (.nil rest)

/-- A value is written as its document, whatever follows. -/
def Written (v : Json) (d : Document) : Prop :=
  ∀ rest, Reads .compact .value (v.write ++ rest) d rest

/-- The items of a list go on after another item, and the members of an object after another
member. -/
def GoesOn : Json → Document → Prop
  | .list vs, .array ds => ∀ cs d rest, (∀ rest, Reads .compact .element (cs ++ rest) d rest) →
    Reads .compact .elements (cs ++ (writeItems vs ++ rest)) (.array (d :: ds)) (']' :: rest)
  | .object ms, .object ds => ∀ cs m rest,
    (∀ rest, Reads .compact .member (cs ++ rest) (.object [m]) rest) →
    Reads .compact .members (cs ++ (writeMembers ms ++ rest)) (.object (m :: ds)) ('\x7d' :: rest)
  | _, _ => True

theorem Written.member {k : String} {v : Json} {d : Document} (h : Written v d)
    (rest : List Char) :
    Reads .compact .member ((quote k ++ ':' :: v.write) ++ rest) (.object [(k, d)]) rest := by
  have hmember := Reads.member (.nil _) (chars_escaped k.toList _) (.nil _) (h rest).bare
  rw [String.ofList_toList] at hmember
  rw [List.append_assoc, quote_append]
  exact hmember

/-- A value is written as its document, and what comes after its first part as the rest of it. -/
theorem StandsFor.written {v : Json} {d : Document} (h : StandsFor v d) :
    Written v d ∧ GoesOn v d := by
  induction h with
  | null => exact ⟨fun rest => .null rest, trivial⟩
  | bool b =>
    refine ⟨fun rest => ?_, trivial⟩
    cases b
    · exact .no rest
    · exact .yes rest
  | integer n => exact ⟨fun rest => .number (integral_signed n rest), trivial⟩
  | text s =>
    refine ⟨fun rest => ?_, trivial⟩
    have htext : Reads .compact .value _ _ rest := .text (chars_escaped s.toList rest)
    rw [String.ofList_toList] at htext
    show Reads .compact .value (quote s ++ rest) _ rest
    rw [quote_append]
    exact htext
  | noItem => exact ⟨fun rest => .noArray (.nil _), fun cs d rest hcs => .lastElement (hcs _)⟩
  | @item v d vs ds _ _ ihv ihvs =>
    have hv : ∀ rest, Reads .compact .element (v.write ++ rest) d rest :=
      fun rest => (ihv.1 rest).bare
    constructor
    · intro rest
      show Reads .compact .value ('[' :: (v.write ++ writeItems vs) ++ rest) _ rest
      rw [List.cons_append, List.append_assoc]
      exact .array (ihvs.2 v.write d rest hv)
    · intro cs first rest hcs
      show Reads .compact .elements (cs ++ (',' :: (v.write ++ writeItems vs) ++ rest)) _ _
      rw [List.cons_append, List.append_assoc]
      exact .elements (hcs _) (ihvs.2 v.write d rest hv)
  | noMember => exact ⟨fun rest => .noObject (.nil _), fun cs m rest hcs => .lastMember (hcs _)⟩
  | @member k v d ms ds _ _ ihv ihms =>
    have hmember := ihv.1.member (k := k)
    have hsplit : ∀ rest, quote k ++ ':' :: (v.write ++ writeMembers ms) ++ rest =
        (quote k ++ ':' :: v.write) ++ (writeMembers ms ++ rest) := by simp
    constructor
    · intro rest
      show Reads .compact .value
        ('\x7b' :: (quote k ++ ':' :: (v.write ++ writeMembers ms)) ++ rest) _ _
      rw [List.cons_append, hsplit]
      exact .object (ihms.2 _ (k, d) rest hmember)
    · intro cs first rest hcs
      show Reads .compact .members
        (cs ++ (',' :: (quote k ++ ':' :: (v.write ++ writeMembers ms)) ++ rest)) _ _
      rw [List.cons_append, hsplit]
      exact .members (hcs _) (ihms.2 _ (k, d) rest hmember)

/-- The text of a value denotes its document. -/
theorem StandsFor.denotes {v : Json} {d : Document} (h : StandsFor v d) :
    Denotes .compact v.toText d := by
  have hvalue := h.written.1 []
  rw [List.append_nil] at hvalue
  show Reads .compact .element (String.ofList v.write).toList d []
  rw [String.toList_ofList]
  exact hvalue.bare

end Json

end Tabular
