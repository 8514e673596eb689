import NamingAdvice.Json

/-! The tokens of JSON text. Blanks are space, tab, line feed and carriage return; a string
refuses bare control units and unknown escapes; a number has no leading zero, and its point
and its power mark have digits after them.
-/

namespace NamingAdvice.Json

inductive Token where
  | openArray
  | closeArray
  | openObject
  | closeObject
  | comma
  | colon
  | null
  | bool (value : Bool)
  | number (value : Decimal)
  | string (value : Text)
deriving DecidableEq, Repr

namespace Token

def isBlank (unit : CodeUnit) : Bool :=
  unit == 0x20 || unit == 0x09 || unit == 0x0A || unit == 0x0D

/-- The unit behind a one-letter escape. -/
def unitOfEscape? (letter : CodeUnit) : Option CodeUnit :=
  if letter == 0x22 || letter == 0x5C || letter == 0x2F then some letter
  else if letter == 0x62 then some 0x08
  else if letter == 0x66 then some 0x0C
  else if letter == 0x6E then some 0x0A
  else if letter == 0x72 then some 0x0D
  else if letter == 0x74 then some 0x09
  else none

/-- The unit written after a backslash, and what follows it. -/
def readEscape? : Text → Option (CodeUnit × Text)
  | [] => none
  | letter :: rest =>
      if letter == 0x75 then
        match rest with
        | first :: second :: third :: fourth :: rest =>
            (Text.valueIn? 16 [first, second, third, fourth]).map (UInt16.ofNat ·, rest)
        | _ => none
      else (unitOfEscape? letter).map (·, rest)

theorem readEscape?_length {source rest : Text} {unit : CodeUnit}
    (h : readEscape? source = some (unit, rest))
    : rest.length < source.length := by
  cases source with
  | nil => simp [readEscape?] at h
  | cons letter tail =>
      simp only [readEscape?] at h
      split at h
      · split at h
        · simp only [Option.map_eq_some_iff, Prod.mk.injEq] at h
          obtain ⟨_, _, _, rfl⟩ := h
          simp only [List.length_cons]
          omega
        · contradiction
      · simp only [Option.map_eq_some_iff, Prod.mk.injEq] at h
        obtain ⟨_, _, _, rfl⟩ := h
        simp

/-- The content of a string after its opening quote, and what follows its closing quote. -/
def readString? (source : Text) : Option (Text × Text) :=
  match source with
  | [] => none
  | unit :: rest =>
      if unit == 0x22 then some ([], rest)
      else if unit == 0x5C then
        match _h : readEscape? rest with
        | none => none
        | some (escaped, rest) =>
            (readString? rest).map (fun (content, after) => (escaped :: content, after))
      else if unit < 0x20 then none
      else (readString? rest).map (fun (content, after) => (unit :: content, after))
termination_by source.length
decreasing_by
  · have := readEscape?_length _h
    simp only [List.length_cons]
    omega
  · simp

theorem readString?_length {source content rest : Text}
    (h : readString? source = some (content, rest))
    : rest.length < source.length := by
  fun_induction readString? source generalizing content with
  | case1 => simp at h
  | case2 unit tail hu => simp_all
  | case3 => simp at h
  | case4 unit tail hu hb escaped after he ih =>
      simp only [Option.map_eq_some_iff, Prod.exists, Prod.mk.injEq] at h
      obtain ⟨inner, last, hi, _, rfl⟩ := h
      have := ih hi
      have := readEscape?_length he
      simp only [List.length_cons]
      omega
  | case5 => simp at h
  | case6 unit tail hu hb hc ih =>
      simp only [Option.map_eq_some_iff, Prod.exists, Prod.mk.injEq] at h
      obtain ⟨inner, last, hi, _, rfl⟩ := h
      have := ih hi
      simp only [List.length_cons]
      omega

/-- The fraction that may follow the whole part of a number. A point needs digits. -/
def readFraction? : Text → Option (Text × Text)
  | unit :: rest =>
      if unit == 0x2E then
        let (digits, rest) := Text.spanDigits rest
        if digits.isEmpty then none else some (digits, rest)
      else some ([], unit :: rest)
  | [] => some ([], [])

theorem readFraction?_length {source digits rest : Text}
    (h : readFraction? source = some (digits, rest))
    : rest.length ≤ source.length := by
  cases source with
  | nil => simp_all [readFraction?]
  | cons unit tail =>
      simp only [readFraction?] at h
      split at h
      · have hd := Text.spanDigits_length tail
        split at h
        · contradiction
        · simp only [Option.some.injEq, Prod.mk.injEq] at h
          rw [← h.2]
          simp only [List.length_cons]
          omega
      · simp only [Option.some.injEq, Prod.mk.injEq] at h
        exact Nat.le_of_eq (congrArg List.length h.2.symm)

/-- Takes a minus sign off the front. -/
def readMinus : Text → Bool × Text
  | unit :: rest => if unit == 0x2D then (true, rest) else (false, unit :: rest)
  | [] => (false, [])

theorem readMinus_length (source : Text) : (readMinus source).2.length ≤ source.length := by
  cases source with
  | nil => simp [readMinus]
  | cons unit rest => simp only [readMinus]; split <;> simp

/-- The number at the start of a text, and what follows it. -/
def readNumber? (source : Text) : Option (Decimal × Text) :=
  let (negative, unsigned) := readMinus source
  let (whole, rest) := Text.spanDigits unsigned
  if whole.isEmpty || (whole.head? == some 0x30 && whole.length > 1) then none
  else do
    let (fraction, rest) ← readFraction? rest
    let (power, rest) ← Decimal.readPower? rest
    some (Decimal.ofParts negative whole fraction power, rest)

theorem readNumber?_length {source rest : Text} {value : Decimal}
    (h : readNumber? source = some (value, rest))
    : rest.length < source.length := by
  have hm := readMinus_length source
  have hs := Text.spanDigits_length (readMinus source).2
  simp only [readNumber?] at h
  split at h
  · contradiction
  · rename_i hw
    simp only [Option.bind_eq_bind, Option.bind_eq_some_iff, Prod.exists, Option.some.injEq,
      Prod.mk.injEq] at h
    obtain ⟨fraction, afterFraction, hf, power, afterPower, hp, _, rfl⟩ := h
    have := readFraction?_length hf
    have := Decimal.readPower?_length hp
    have : 0 < (Text.spanDigits (readMinus source).2).1.length := by
      apply List.length_pos_iff.mpr
      simp_all
    omega

/-- The words that stand for themselves. -/
def words : List (Text × Token) :=
  [(text "null", .null), (text "true", .bool true), (text "false", .bool false)]

/-- Takes a given beginning off a text. -/
def dropStart? : (start source : Text) → Option Text
  | [], source => some source
  | _ :: _, [] => none
  | expected :: start, unit :: source =>
      if expected == unit then dropStart? start source else none

theorem dropStart?_length {start source rest : Text} (h : dropStart? start source = some rest)
    : rest.length + start.length = source.length := by
  induction start generalizing source with
  | nil => simp_all [dropStart?]
  | cons expected start ih =>
      cases source with
      | nil => simp [dropStart?] at h
      | cons unit source =>
          simp only [dropStart?] at h
          split at h
          · have := ih h
            simp only [List.length_cons]
            omega
          · contradiction

/-- The word at the start of a text, and what follows it. -/
def readWord? (source : Text) : Option (Token × Text) :=
  words.findSome? (fun (word, token) => (dropStart? word source).map (token, ·))

theorem readWord?_length {source rest : Text} {token : Token}
    (h : readWord? source = some (token, rest))
    : rest.length < source.length := by
  obtain ⟨⟨word, named⟩, hm, hw⟩ := List.exists_of_findSome?_eq_some h
  simp only [Option.map_eq_some_iff, Prod.mk.injEq] at hw
  obtain ⟨after, hd, _, rfl⟩ := hw
  have := dropStart?_length hd
  have : 0 < word.length := by
    simp only [words, List.mem_cons, Prod.mk.injEq, List.not_mem_nil, or_false] at hm
    rcases hm with ⟨rfl, _⟩ | ⟨rfl, _⟩ | ⟨rfl, _⟩ <;> decide
  omega

/-- The token of a mark of one unit. -/
def ofMark? (unit : CodeUnit) : Option Token :=
  if unit == 0x5B then some .openArray
  else if unit == 0x5D then some .closeArray
  else if unit == 0x7B then some .openObject
  else if unit == 0x7D then some .closeObject
  else if unit == 0x2C then some .comma
  else if unit == 0x3A then some .colon
  else none

/-- The token that starts with the first unit of a text, and what follows it. -/
def next? (unit : CodeUnit) (rest : Text) : Option (Token × Text) :=
  match ofMark? unit with
  | some token => some (token, rest)
  | none =>
      if unit == 0x22 then (readString? rest).map (fun (content, after) => (.string content, after))
      else if unit == 0x2D || unit.isDecimalDigit then
        (readNumber? (unit :: rest)).map (fun (value, after) => (.number value, after))
      else readWord? (unit :: rest)

theorem next?_length {unit : CodeUnit} {rest after : Text} {token : Token}
    (h : next? unit rest = some (token, after))
    : after.length < rest.length + 1 := by
  simp only [next?] at h
  split at h
  · simp only [Option.some.injEq, Prod.mk.injEq] at h
    rw [h.2]
    omega
  · split at h
    · simp only [Option.map_eq_some_iff, Prod.exists, Prod.mk.injEq] at h
      obtain ⟨content, last, hs, _, rfl⟩ := h
      have := readString?_length hs
      omega
    · split at h
      · simp only [Option.map_eq_some_iff, Prod.exists, Prod.mk.injEq] at h
        obtain ⟨value, last, hn, _, rfl⟩ := h
        have := readNumber?_length hn
        simpa using this
      · have := readWord?_length h
        simpa using this

end Token

end NamingAdvice.Json
