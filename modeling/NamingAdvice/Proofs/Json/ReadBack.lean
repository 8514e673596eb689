import Mathlib.Data.List.Nodup
import NamingAdvice.Json.Reader
import NamingAdvice.Proofs.Json.Token

/-! Values read back. A value without repeated keys, whose numbers are in their canonical form, comes
back from its text, whatever the indent and whatever blanks follow. The text of any value has all of
its surrogates paired, so it also comes back from the octets of that text.
-/

namespace NamingAdvice.Json

/-- A value that has one text for each indent: no object repeats a key, and every number is in its
canonical form.
-/
inductive Canonical : Json → Prop where
  | null : Canonical .null
  | bool (value : Bool) : Canonical (.bool value)
  | number {value : Decimal} (own : value.Canonical) : Canonical (.number value)
  | string (value : Text) : Canonical (.string value)
  | array {items : List Json} (each : ∀ item ∈ items, Canonical item) : Canonical (.array items)
  | object {members : List (Text × Json)} (distinct : (members.map Prod.fst).Nodup)
      (each : ∀ member ∈ members, Canonical member.2)
      : Canonical (.object members)

namespace Progress

theorem run_blank {unit : CodeUnit} (h : Token.isBlank unit = true) (progress : Progress)
    (rest : Text)
    : progress.run (unit :: rest) = progress.run rest := by
  rw [run, if_pos h]

theorem run_blanks {blanks : Text} (h : ∀ unit ∈ blanks, Token.isBlank unit = true)
    (progress : Progress) (rest : Text)
    : progress.run (blanks ++ rest) = progress.run rest := by
  induction blanks with
  | nil => rfl
  | cons unit blanks ih =>
      rw [List.cons_append, run_blank (h unit List.mem_cons_self)]
      exact ih (fun other ho => h other (List.mem_cons_of_mem _ ho))

/-- Reading goes on behind a token that can be taken in. -/
theorem run_token {progress next : Progress} {source rest : Text} {token : Token}
    (starts : token.Starts source rest) (taken : progress.step token = some next)
    : progress.run source = next.run rest := by
  obtain ⟨unit, tail, rfl, blank, read⟩ := starts
  rw [run, if_neg (by simp [blank])]
  split
  · next found after hf =>
      obtain ⟨rfl, rfl⟩ := Prod.mk.inj (Option.some.inj (read.symm.trans hf))
      rw [taken]
  · next hf => simp [read] at hf

theorem run_mark {progress next : Progress} {unit : CodeUnit} {token : Token}
    (mark : Token.ofMark? unit = some token) (taken : progress.step token = some next)
    (rest : Text)
    : progress.run (unit :: rest) = next.run rest :=
  run_token (Token.starts_mark mark rest) taken

/-- A value may start here, inside given frames. -/
def Awaits (progress : Progress) (outer : List Frame) : Prop :=
  ∀ token next, start? outer token = some next → progress.step token = some next

theorem awaits_beforeValue (outer : List Frame) : (beforeValue outer).Awaits outer :=
  fun _ _ started => started

/-- Behind an opening bracket an item may start, since no item starts with a closing one. -/
theorem awaits_afterOpenArray (outer : List Frame)
    : (afterOpenArray outer).Awaits (.array [] :: outer) := by
  intro token next started
  cases token with
  | closeArray => simp [start?] at started
  | _ => exact started

end Progress

theorem isBlank_of_mem_lineBreak {indent depth : Nat} {unit : CodeUnit}
    (h : unit ∈ lineBreak indent depth)
    : Token.isBlank unit = true := by
  rw [lineBreak] at h
  split at h
  · contradiction
  · rcases List.mem_cons.mp h with rfl | h
    · rfl
    · rw [List.eq_of_mem_replicate h]
      rfl

/-- A value is read back wherever it may start, in front of any text that does not go on with a
number.
-/
def ReadsBack (value : Json) : Prop :=
  ∀ (indent depth : Nat) (progress : Progress) (outer : List Frame) (rest : Text),
    progress.Awaits outer
    → Token.EndsNumber rest
    → progress.run (value.writeAt indent depth ++ rest)
      = (Progress.afterValue value outer).run rest

theorem endsNumber_cons {unit : CodeUnit}
    (h : unit.isDecimalDigit = false ∧ unit ≠ 0x2E ∧ unit ≠ 0x65 ∧ unit ≠ 0x45) (rest : Text)
    : Token.EndsNumber (unit :: rest) := by
  intro first same
  obtain rfl := Option.some.inj same
  exact h

theorem endsNumber_lineBreak (indent depth : Nat) {rest : Text} (h : Token.EndsNumber rest)
    : Token.EndsNumber (lineBreak indent depth ++ rest) := by
  rw [lineBreak]
  split
  · exact h
  · exact endsNumber_cons (by decide) _

theorem endsNumber_writeItems (indent depth : Nat) (items : List Json) {rest : Text}
    (h : Token.EndsNumber rest)
    : Token.EndsNumber (writeItems indent depth items ++ rest) := by
  cases items with
  | nil => exact h
  | cons item items => exact endsNumber_cons (by decide) _

theorem endsNumber_writeMembers (indent depth : Nat) (members : List (Text × Json)) {rest : Text}
    (h : Token.EndsNumber rest)
    : Token.EndsNumber (writeMembers indent depth members ++ rest) := by
  cases members with
  | nil => exact h
  | cons member members => exact endsNumber_cons (by decide) _

-----------------------------------------------------------------------------------------
-- Arrays and objects, from the first value on
-----------------------------------------------------------------------------------------

variable (indent depth : Nat) (outer : List Frame)

theorem run_lineBreak (progress : Progress) (rest : Text)
    : progress.run (lineBreak indent depth ++ rest) = progress.run rest :=
  Progress.run_blanks (fun _ hm => isBlank_of_mem_lineBreak hm) progress rest

/-- The items behind a value are taken in one after the other, up to the closing bracket. -/
theorem run_items {items : List Json} (each : ∀ item ∈ items, item.ReadsBack) (value : Json)
    (before : List Json) (rest : Text)
    : (Progress.afterValue value (.array before :: outer)).run
        (writeItems indent (depth + 1) items ++ (lineBreak indent depth ++ 0x5D :: rest))
      = (Progress.afterValue (.array ((value :: before).reverse ++ items)) outer).run rest := by
  have closes : Token.EndsNumber (lineBreak indent depth ++ 0x5D :: rest) :=
    endsNumber_lineBreak indent depth (endsNumber_cons (by decide) rest)
  induction items generalizing value before with
  | nil =>
      simp only [writeItems, List.nil_append, run_lineBreak, List.append_nil]
      exact Progress.run_mark rfl rfl rest
  | cons item items ih =>
      have back := each item List.mem_cons_self
      have more := ih (fun other ho => each other (List.mem_cons_of_mem _ ho)) item
        (value :: before)
      simp only [writeItems, List.cons_append, List.append_assoc]
      rw [Progress.run_mark rfl rfl, run_lineBreak,
        back indent (depth + 1) _ _ _ (Progress.awaits_beforeValue _)
          (endsNumber_writeItems indent (depth + 1) items closes),
        more]
      simp

/-- A member whose key is not there yet comes last. -/
theorem setMember_of_distinct {key : Text} {value : Json} {before after : List (Text × Json)}
    (distinct : ((before ++ (key, value) :: after).map Prod.fst).Nodup)
    : setMember key value before = before ++ [(key, value)] := by
  induction before with
  | nil => rfl
  | cons member before ih =>
      obtain ⟨differs, more⟩ := List.nodup_cons.mp distinct
      have passed : member.1 ≠ key := by
        intro same
        exact differs (by simp [same])
      simp [setMember, passed, ih more]

theorem run_colon (before : List (Text × Json)) (key rest : Text)
    : (Progress.beforeColon before key outer).run (keyMark indent ++ rest)
      = (Progress.beforeValue (.object before key :: outer)).run rest := by
  rw [keyMark]
  split
  · exact Progress.run_mark rfl rfl rest
  · exact (Progress.run_mark rfl rfl _).trans (Progress.run_blank rfl _ rest)

/-- The members behind a value are taken in one after the other, up to the closing brace. No key
is there already, so each member comes last.
-/
theorem run_members {members : List (Text × Json)}
    (each : ∀ member ∈ members, member.2.ReadsBack) {before : List (Text × Json)} {key : Text}
    {value : Json} (distinct : ((before ++ (key, value) :: members).map Prod.fst).Nodup)
    (rest : Text)
    : (Progress.afterValue value (.object before key :: outer)).run
        (writeMembers indent (depth + 1) members ++ (lineBreak indent depth ++ 0x7D :: rest))
      = (Progress.afterValue (.object (before ++ (key, value) :: members)) outer).run rest := by
  have closes : Token.EndsNumber (lineBreak indent depth ++ 0x7D :: rest) :=
    endsNumber_lineBreak indent depth (endsNumber_cons (by decide) rest)
  induction members generalizing before key value with
  | nil =>
      simp only [writeMembers, List.nil_append, run_lineBreak, ← setMember_of_distinct distinct]
      exact Progress.run_mark rfl rfl rest
  | cons member members ih =>
      obtain ⟨name, held⟩ := member
      have back := each (name, held) List.mem_cons_self
      have added := setMember_of_distinct distinct
      have same : before ++ (key, value) :: (name, held) :: members
          = setMember key value before ++ (name, held) :: members := by
        simp [added]
      rw [same] at distinct ⊢
      have more := ih (fun other ho => each other (List.mem_cons_of_mem _ ho)) distinct
      simp only [writeMembers, List.cons_append, List.append_assoc]
      rw [Progress.run_mark rfl rfl, run_lineBreak,
        Progress.run_token (Token.starts_quote name _) rfl, run_colon,
        back indent (depth + 1) _ _ _ (Progress.awaits_beforeValue _)
          (endsNumber_writeMembers indent (depth + 1) members closes),
        more]

-----------------------------------------------------------------------------------------
-- Whole values
-----------------------------------------------------------------------------------------

theorem readsBack_array {items : List Json} (each : ∀ item ∈ items, item.ReadsBack)
    : (array items).ReadsBack := by
  intro indent depth progress outer rest awaits ends
  have opened : progress.step .openArray = some (.afterOpenArray outer) := awaits _ _ rfl
  cases items with
  | nil =>
      have brackets : text "[]" = [0x5B, 0x5D] := by decide
      simp only [writeAt, brackets, List.cons_append, List.nil_append]
      rw [Progress.run_mark rfl opened, Progress.run_mark rfl rfl]
  | cons item items =>
      have back := each item List.mem_cons_self
      have closes : Token.EndsNumber (lineBreak indent depth ++ 0x5D :: rest) :=
        endsNumber_lineBreak indent depth (endsNumber_cons (by decide) rest)
      simp only [writeAt, List.cons_append, List.append_assoc, List.nil_append]
      rw [Progress.run_mark rfl opened, run_lineBreak,
        back indent (depth + 1) _ _ _ (Progress.awaits_afterOpenArray outer)
          (endsNumber_writeItems indent (depth + 1) items closes),
        run_items indent depth outer (fun other ho => each other (List.mem_cons_of_mem _ ho))]
      rfl

theorem readsBack_object {members : List (Text × Json)}
    (distinct : (members.map Prod.fst).Nodup) (each : ∀ member ∈ members, member.2.ReadsBack)
    : (object members).ReadsBack := by
  intro indent depth progress outer rest awaits ends
  have opened : progress.step .openObject = some (.afterOpenObject outer) := awaits _ _ rfl
  cases members with
  | nil =>
      have braces : text "\x7b\x7d" = [0x7B, 0x7D] := by decide
      simp only [writeAt, braces, List.cons_append, List.nil_append]
      rw [Progress.run_mark rfl opened, Progress.run_mark rfl rfl]
  | cons member members =>
      obtain ⟨key, value⟩ := member
      have back := each (key, value) List.mem_cons_self
      have closes : Token.EndsNumber (lineBreak indent depth ++ 0x7D :: rest) :=
        endsNumber_lineBreak indent depth (endsNumber_cons (by decide) rest)
      simp only [writeAt, List.cons_append, List.append_assoc, List.nil_append]
      rw [Progress.run_mark rfl opened, run_lineBreak,
        Progress.run_token (Token.starts_quote key _) rfl, run_colon,
        back indent (depth + 1) _ _ _ (Progress.awaits_beforeValue _)
          (endsNumber_writeMembers indent (depth + 1) members closes),
        run_members indent depth outer (fun other ho => each other (List.mem_cons_of_mem _ ho))
          distinct]
      rfl

/-- A canonical value is read back, by induction on what it holds. -/
theorem Canonical.readsBack {value : Json} (h : value.Canonical) : value.ReadsBack := by
  induction h with
  | null =>
      intro indent depth progress outer rest awaits ends
      exact Progress.run_token (Token.starts_null rest) (awaits _ _ rfl)
  | bool value =>
      intro indent depth progress outer rest awaits ends
      exact Progress.run_token (Token.starts_bool value rest) (awaits _ _ rfl)
  | number own =>
      intro indent depth progress outer rest awaits ends
      exact Progress.run_token (Token.starts_number own ends) (awaits _ _ rfl)
  | string value =>
      intro indent depth progress outer rest awaits ends
      exact Progress.run_token (Token.starts_quote value rest) (awaits _ _ rfl)
  | array _ ih => exact readsBack_array ih
  | object distinct _ ih => exact readsBack_object distinct ih

theorem endsNumber_blanks {blanks : Text} (h : ∀ unit ∈ blanks, Token.isBlank unit = true)
    : Token.EndsNumber blanks := by
  intro unit first
  have blank := h unit (List.mem_of_mem_head? first)
  simp only [Token.isBlank, Bool.or_eq_true, beq_iff_eq] at blank
  rcases blank with ((rfl | rfl) | rfl) | rfl <;> decide

/-- What was written for a canonical value is read as that value, also with blanks behind it. -/
theorem read_write {value : Json} (h : value.Canonical) (indent : Nat) {blanks : Text}
    (hb : ∀ unit ∈ blanks, Token.isBlank unit = true)
    : read (value.write indent ++ blanks) = .ok value := by
  have whole : (Progress.beforeValue []).run (value.write indent ++ blanks) = .ok value := by
    rw [write, h.readsBack indent 0 _ _ _ (Progress.awaits_beforeValue []) (endsNumber_blanks hb)]
    have behind := Progress.run_blanks hb (.afterValue value []) []
    rw [List.append_nil] at behind
    rw [behind, Progress.run]
    rfl
  rw [read, whole]
  rfl

-----------------------------------------------------------------------------------------
-- The text of a value as octets
-----------------------------------------------------------------------------------------

theorem paired_lineBreak : Text.Paired (lineBreak indent depth) := by
  apply Text.paired_of_forall
  intro unit hm
  have blank := isBlank_of_mem_lineBreak hm
  simp only [Token.isBlank, Bool.or_eq_true, beq_iff_eq] at blank
  rcases blank with ((rfl | rfl) | rfl) | rfl <;> decide

theorem paired_keyMark : Text.Paired (keyMark indent) := by
  rw [keyMark]
  split <;> exact Text.paired_of_all (by decide)

mutual

theorem paired_writeAt (indent depth : Nat) (value : Json)
    : Text.Paired (value.writeAt indent depth) := by
  match value with
  | .null => exact Utf8.paired_text "null"
  | .bool true => exact Utf8.paired_text "true"
  | .bool false => exact Utf8.paired_text "false"
  | .number value => exact Token.paired_toText value
  | .string value => exact Token.paired_quote value
  | .array [] => exact Utf8.paired_text "[]"
  | .array (item :: items) =>
      rw [writeAt]
      exact .plain (by decide)
        ((((paired_lineBreak indent _).append (paired_writeAt indent _ item)).append
          (paired_writeItems indent _ items)).append (paired_lineBreak indent _)
          |>.append (.plain (by decide) .nil))
  | .object [] => exact Utf8.paired_text "\x7b\x7d"
  | .object ((key, value) :: members) =>
      rw [writeAt]
      exact .plain (by decide)
        ((((((paired_lineBreak indent _).append (Token.paired_quote key)).append
          (paired_keyMark indent)).append (paired_writeAt indent _ value)).append
          (paired_writeMembers indent _ members)).append (paired_lineBreak indent _)
          |>.append (.plain (by decide) .nil))

theorem paired_writeItems (indent depth : Nat) (items : List Json)
    : Text.Paired (writeItems indent depth items) := by
  match items with
  | [] => exact .nil
  | item :: items =>
      rw [writeItems]
      exact .plain (by decide)
        (((paired_lineBreak indent depth).append (paired_writeAt indent depth item)).append
          (paired_writeItems indent depth items))

theorem paired_writeMembers (indent depth : Nat) (members : List (Text × Json))
    : Text.Paired (writeMembers indent depth members) := by
  match members with
  | [] => exact .nil
  | (key, value) :: members =>
      rw [writeMembers]
      exact .plain (by decide)
        (((((paired_lineBreak indent depth).append (Token.paired_quote key)).append
          (paired_keyMark indent)).append (paired_writeAt indent depth value)).append
          (paired_writeMembers indent depth members))

end

/-- A value is read back from the octets of its text. -/
theorem read_decode_encode_write {value : Json} (h : value.Canonical) (indent : Nat)
    : Json.read (Utf8.decode (Utf8.encode (value.write indent))) = .ok value := by
  have paired : Text.Paired (value.write indent) := paired_writeAt indent 0 value
  have back := read_write h indent (List.forall_mem_nil _)
  rw [List.append_nil] at back
  rw [Utf8.decode_encode paired, back]

end NamingAdvice.Json
