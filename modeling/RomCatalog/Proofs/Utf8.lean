import RomCatalog.Text.Utf8

/-!
UTF-8 loses nothing. Decoding an encoded text gives the text, bytes that decode to a text are its
encoding, and an encoded text is still read as that text after any bytes, even after a character
that was broken off.
-/

namespace RomCatalog.Utf8

theorem toNat_valid (c : Char) : c.toNat < 0xD800 ∨ 0xDFFF < c.toNat ∧ c.toNat < 0x110000 :=
  c.valid

theorem toNat_lt (c : Char) : c.toNat < 0x110000 := by
  have valid := toNat_valid c
  omega

theorem toNat_ofNat {n : Nat} (valid : n < 0xD800 ∨ 0xDFFF < n ∧ n < 0x110000) :
    (Char.ofNat n).toNat = n := by
  have isValid : n.isValidChar := valid
  rw [Char.ofNat, dif_pos isValid]
  rfl

theorem decodeFrom_cons (state : State) (byte : UInt8) (rest : Bytes) :
    decodeFrom state (byte :: rest) =
      (step state byte.toNat).1 ++ decodeFrom (step state byte.toNat).2 rest := by
  cases state <;> rfl

theorem decodeFrom_last {low high value : Nat} {byte : UInt8} (rest : Bytes)
    (fits : low ≤ byte.toNat ∧ byte.toNat ≤ high) :
    decodeFrom (.inside 0 low high value) (byte :: rest) =
      some (Char.ofNat (value * 64 + (byte.toNat - 0x80))) :: decodeFrom .start rest := by
  simp [decodeFrom_cons, step, fits]

theorem decodeFrom_next {missing low high value : Nat} {byte : UInt8} (rest : Bytes)
    (fits : low ≤ byte.toNat ∧ byte.toNat ≤ high) :
    decodeFrom (.inside (missing + 1) low high value) (byte :: rest) =
      decodeFrom (.inside missing 0x80 0xBF (value * 64 + (byte.toNat - 0x80))) rest := by
  simp [decodeFrom_cons, step, fits]

theorem decodeFrom_broken {missing low high value : Nat} {byte : UInt8} (rest : Bytes)
    (broken : ¬ (low ≤ byte.toNat ∧ byte.toNat ≤ high)) :
    decodeFrom (.inside missing low high value) (byte :: rest) =
      none :: decodeFrom .start (byte :: rest) := by
  simp [decodeFrom_cons, step, broken]

theorem toNat_toUInt8 {n : Nat} (small : n < 256) : n.toUInt8.toNat = n := by
  simp [Nat.mod_eq_of_lt small]

/-! The first byte of a longer character tells its length and its leading bits. -/

theorem begin_two (lead : Nat) (bounds : 2 ≤ lead ∧ lead < 32) :
    begin (0xC0 + lead) = ([], .inside 0 0x80 0xBF lead) := by
  rw [begin, if_neg (by omega), if_neg (by omega), if_pos (by omega), Nat.add_sub_cancel_left]

theorem begin_three (lead : Nat) (bound : lead < 16) :
    begin (0xE0 + lead) =
      ([], .inside 1 (if lead = 0 then 0xA0 else 0x80) (if lead = 13 then 0x9F else 0xBF) lead) := by
  rw [begin, if_neg (by omega), if_neg (by omega), if_neg (by omega)]
  by_cases zero : lead = 0
  · simp [zero]
  by_cases surrogates : lead = 13
  · simp [surrogates]
  rw [if_neg (by omega), if_neg (by omega), if_pos (by omega), Nat.add_sub_cancel_left]
  simp [zero, surrogates]

theorem begin_four (lead : Nat) (bound : lead < 5) :
    begin (0xF0 + lead) =
      ([], .inside 2 (if lead = 0 then 0x90 else 0x80) (if lead = 4 then 0x8F else 0xBF) lead) := by
  rw [begin, if_neg (by omega), if_neg (by omega), if_neg (by omega), if_neg (by omega),
    if_neg (by omega), if_neg (by omega)]
  by_cases zero : lead = 0
  · simp [zero]
  by_cases last : lead = 4
  · simp [last]
  rw [if_neg (by omega), if_pos (by omega), Nat.add_sub_cancel_left]
  simp [zero, last]

theorem decodeFrom_encodeChar (c : Char) (rest : Bytes) :
    decodeFrom .start (encodeChar c ++ rest) = some c :: decodeFrom .start rest := by
  have valid := toNat_valid c
  have whole : Char.ofNat c.toNat = c := Char.ofNat_toNat c
  unfold encodeChar
  generalize c.toNat = n at valid whole
  subst whole
  have last : (0x80 + n % 64).toUInt8.toNat = 0x80 + n % 64 := toNat_toUInt8 (by omega)
  have middle : (0x80 + n / 64 % 64).toUInt8.toNat = 0x80 + n / 64 % 64 := toNat_toUInt8 (by omega)
  dsimp only
  split
  · rename_i one
    rw [List.singleton_append, decodeFrom_cons, toNat_toUInt8 (by omega)]
    simp [step, begin, one]
  split
  · have first : (0xC0 + n / 64).toUInt8.toNat = 0xC0 + n / 64 := toNat_toUInt8 (by omega)
    have value : n / 64 * 64 + (0x80 + n % 64 - 0x80) = n := by omega
    simp only [List.cons_append, List.nil_append]
    rw [decodeFrom_cons, step, first, begin_two _ (by omega), List.nil_append,
      decodeFrom_last _ (by omega), last, value]
  split
  · have first : (0xE0 + n / 4096).toUInt8.toNat = 0xE0 + n / 4096 := toNat_toUInt8 (by omega)
    have value : (n / 4096 * 64 + (0x80 + n / 64 % 64 - 0x80)) * 64 + (0x80 + n % 64 - 0x80) = n := by
      omega
    simp only [List.cons_append, List.nil_append]
    rw [decodeFrom_cons, step, first, begin_three _ (by omega), List.nil_append,
      decodeFrom_next _ (by split <;> split <;> omega), middle, decodeFrom_last _ (by omega), last,
      value]
  · have first : (0xF0 + n / 262144).toUInt8.toNat = 0xF0 + n / 262144 := toNat_toUInt8 (by omega)
    have second : (0x80 + n / 4096 % 64).toUInt8.toNat = 0x80 + n / 4096 % 64 :=
      toNat_toUInt8 (by omega)
    have value : ((n / 262144 * 64 + (0x80 + n / 4096 % 64 - 0x80)) * 64 +
        (0x80 + n / 64 % 64 - 0x80)) * 64 + (0x80 + n % 64 - 0x80) = n := by
      omega
    simp only [List.cons_append, List.nil_append]
    rw [decodeFrom_cons, step, first, begin_four _ (by omega), List.nil_append,
      decodeFrom_next _ (by split <;> split <;> omega), second, decodeFrom_next _ (by omega), middle,
      decodeFrom_last _ (by omega), last, value]

theorem encodeChars_cons (c : Char) (rest : List Char) :
    encodeChars (c :: rest) = encodeChar c ++ encodeChars rest :=
  List.flatMap_cons

theorem decodeFrom_encodeChars (text : List Char) :
    decodeFrom .start (encodeChars text) = text.map some := by
  induction text with
  | nil => rfl
  | cons c rest ih =>
      rw [encodeChars_cons, decodeFrom_encodeChar, ih, List.map_cons]

theorem decode_encode (text : String) : decode (encode text) = text.toList.map some :=
  decodeFrom_encodeChars text.toList

/-! Bytes of an unfinished character, together with bytes that fit, encode the character that is
then read. -/

def Unfinished : Nat → Nat → Nat → Nat → Bytes → Prop
  | 0, low, high, value, seen => ∀ byte : UInt8, low ≤ byte.toNat ∧ byte.toNat ≤ high →
      encodeChar (Char.ofNat (value * 64 + (byte.toNat - 0x80))) = seen ++ [byte]
  | missing + 1, low, high, value, seen => ∀ byte : UInt8, low ≤ byte.toNat ∧ byte.toNat ≤ high →
      Unfinished missing 0x80 0xBF (value * 64 + (byte.toNat - 0x80)) (seen ++ [byte])

theorem toUInt8_eq {n : Nat} (byte : UInt8) (same : n = byte.toNat) : n.toUInt8 = byte := by
  rw [same]
  exact UInt8.ofNat_toNat

theorem unfinished_two {first : UInt8} {lead : Nat} (bounds : 2 ≤ lead ∧ lead < 32)
    (same : first.toNat = 0xC0 + lead) : Unfinished 0 0x80 0xBF lead [first] := by
  intro second fits
  rw [encodeChar, toNat_ofNat (by omega), if_neg (by omega), if_pos (by omega),
    toUInt8_eq first (by omega),
    toUInt8_eq second (by omega)]
  rfl

theorem unfinished_three {first : UInt8} {lead : Nat} (bound : lead < 16)
    (same : first.toNat = 0xE0 + lead) :
    Unfinished 1 (if lead = 0 then 0xA0 else 0x80) (if lead = 13 then 0x9F else 0xBF) lead
      [first] := by
  intro second fits third fitsThird
  have overlong : lead = 0 → 0xA0 ≤ second.toNat := fun zero => by simpa [zero] using fits.1
  have surrogates : lead = 13 → second.toNat ≤ 0x9F := fun last => by simpa [last] using fits.2
  have range : 0x80 ≤ second.toNat ∧ second.toNat ≤ 0xBF := by
    constructor
    · exact Nat.le_trans (by split <;> omega) fits.1
    · exact Nat.le_trans fits.2 (by split <;> omega)
  rw [encodeChar, toNat_ofNat (by omega), if_neg (by omega), if_neg (by omega), if_pos (by omega),
    toUInt8_eq first (by omega),
    toUInt8_eq second (by omega), toUInt8_eq third (by omega)]
  rfl

theorem unfinished_four {first : UInt8} {lead : Nat} (bound : lead < 5)
    (same : first.toNat = 0xF0 + lead) :
    Unfinished 2 (if lead = 0 then 0x90 else 0x80) (if lead = 4 then 0x8F else 0xBF) lead
      [first] := by
  intro second fits third fitsThird fourth fitsFourth
  have overlong : lead = 0 → 0x90 ≤ second.toNat := fun zero => by simpa [zero] using fits.1
  have beyond : lead = 4 → second.toNat ≤ 0x8F := fun last => by simpa [last] using fits.2
  have range : 0x80 ≤ second.toNat ∧ second.toNat ≤ 0xBF := by
    constructor
    · exact Nat.le_trans (by split <;> omega) fits.1
    · exact Nat.le_trans fits.2 (by split <;> omega)
  rw [encodeChar, toNat_ofNat (by omega), if_neg (by omega), if_neg (by omega), if_neg (by omega),
    toUInt8_eq first (by omega),
    toUInt8_eq second (by omega), toUInt8_eq third (by omega),
    toUInt8_eq fourth (by omega)]
  rfl

theorem begin_cases (byte : UInt8) :
    (byte.toNat < 0x80 ∧ begin byte.toNat = ([some (Char.ofNat byte.toNat)], .start)) ∨
    begin byte.toNat = ([none], .start) ∨
    ∃ missing low high value, begin byte.toNat = ([], .inside missing low high value) ∧
      Unfinished missing low high value [byte] ∧ 0x80 ≤ low ∧ high ≤ 0xBF := by
  have bound := byte.toNat_lt
  by_cases one : byte.toNat < 0x80
  · exact Or.inl ⟨one, by rw [begin, if_pos one]⟩
  by_cases stray : byte.toNat < 0xC2
  · exact Or.inr (Or.inl (by rw [begin, if_neg one, if_pos stray]))
  by_cases two : byte.toNat < 0xE0
  · have same : byte.toNat = 0xC0 + (byte.toNat - 0xC0) := by omega
    have began := begin_two (byte.toNat - 0xC0) (by omega)
    rw [← same] at began
    exact Or.inr (Or.inr ⟨_, _, _, _, began, unfinished_two (by omega) same, by omega, by omega⟩)
  by_cases three : byte.toNat < 0xF0
  · have same : byte.toNat = 0xE0 + (byte.toNat - 0xE0) := by omega
    have began := begin_three (byte.toNat - 0xE0) (by omega)
    rw [← same] at began
    exact Or.inr (Or.inr ⟨_, _, _, _, began, unfinished_three (by omega) same,
      by split <;> omega, by split <;> omega⟩)
  by_cases four : byte.toNat < 0xF5
  · have same : byte.toNat = 0xF0 + (byte.toNat - 0xF0) := by omega
    have began := begin_four (byte.toNat - 0xF0) (by omega)
    rw [← same] at began
    exact Or.inr (Or.inr ⟨_, _, _, _, began, unfinished_four (by omega) same,
      by split <;> omega, by split <;> omega⟩)
  · refine Or.inr (Or.inl ?_)
    rw [begin, if_neg one, if_neg stray, if_neg two, if_neg (by omega), if_neg (by omega),
      if_neg three, if_neg (by omega), if_neg (by omega), if_neg (by omega)]

theorem encodeChar_ascii {byte : UInt8} (one : byte.toNat < 0x80) :
    encodeChar (Char.ofNat byte.toNat) = [byte] := by
  rw [encodeChar, toNat_ofNat (by omega), if_pos one, toUInt8_eq byte rfl]

mutual

theorem encodeChars_of_decodeFrom_start {bytes : Bytes} {text : List Char}
    (decoded : decodeFrom .start bytes = text.map some) : encodeChars text = bytes := by
  cases bytes with
  | nil =>
      cases text with
      | nil => rfl
      | cons c rest => simp [decodeFrom] at decoded
  | cons byte rest =>
      rw [decodeFrom_cons, step] at decoded
      rcases begin_cases byte with ⟨one, began⟩ | began | ⟨missing, low, high, value, began, seen, _⟩
      · rw [began] at decoded
        cases text with
        | nil => simp at decoded
        | cons c others =>
            simp only [List.map_cons, List.cons_append, List.nil_append, List.cons.injEq,
              Option.some.injEq] at decoded
            obtain ⟨rfl, decoded⟩ := decoded
            have tail := encodeChars_of_decodeFrom_start decoded
            rw [encodeChars_cons, tail, encodeChar_ascii one, List.singleton_append]
      · rw [began] at decoded
        cases text <;> simp at decoded
      · rw [began, List.nil_append] at decoded
        exact encodeChars_of_decodeFrom_inside seen decoded
termination_by bytes.length

theorem encodeChars_of_decodeFrom_inside {missing low high value : Nat} {seen bytes : Bytes}
    {text : List Char} (unfinished : Unfinished missing low high value seen)
    (decoded : decodeFrom (.inside missing low high value) bytes = text.map some) :
    encodeChars text = seen ++ bytes := by
  cases bytes with
  | nil => cases text <;> simp [decodeFrom] at decoded
  | cons byte rest =>
      by_cases fits : low ≤ byte.toNat ∧ byte.toNat ≤ high
      · cases missing with
        | zero =>
            rw [decodeFrom_last rest fits] at decoded
            cases text with
            | nil => simp at decoded
            | cons c others =>
                simp only [List.map_cons, List.cons.injEq, Option.some.injEq] at decoded
                obtain ⟨rfl, decoded⟩ := decoded
                have tail := encodeChars_of_decodeFrom_start decoded
                rw [encodeChars_cons, tail, unfinished byte fits, List.append_assoc,
                  List.singleton_append]
        | succ missing =>
            rw [decodeFrom_next rest fits] at decoded
            have tail := encodeChars_of_decodeFrom_inside (unfinished byte fits) decoded
            rw [tail, List.append_assoc, List.singleton_append]
      · rw [decodeFrom_broken rest fits] at decoded
        cases text <;> simp at decoded
termination_by bytes.length

end

theorem map_some_filterMap_id (items : List (Option Char))
    (whole : items.all Option.isSome = true) : (items.filterMap id).map some = items := by
  induction items with
  | nil => rfl
  | cons item rest ih =>
      rw [List.all_cons, Bool.and_eq_true] at whole
      obtain ⟨c, rfl⟩ := Option.isSome_iff_exists.mp whole.1
      simpa using ih whole.2

theorem decode?_eq_some_iff {bytes : Bytes} {text : String} :
    decode? bytes = some text ↔ encode text = bytes := by
  constructor
  · intro decoded
    unfold decode? at decoded
    split at decoded
    · rename_i whole
      rw [Option.some.injEq] at decoded
      subst decoded
      refine encodeChars_of_decodeFrom_start ?_
      rw [String.toList_ofList, map_some_filterMap_id _ whole, decode]
    · simp at decoded
  · rintro rfl
    simp [decode?, decode_encode]

theorem decode?_eq_none_iff {bytes : Bytes} :
    decode? bytes = none ↔ ∀ text, encode text ≠ bytes := by
  rw [Option.eq_none_iff_forall_ne_some]
  exact forall_congr' fun text => not_congr decode?_eq_some_iff

theorem decode?_encode (text : String) : decode? (encode text) = some text :=
  decode?_eq_some_iff.mpr rfl

theorem encode_injective {left right : String} (same : encode left = encode right) :
    left = right := by
  have decoded := decode?_encode left
  rw [same, decode?_encode] at decoded
  exact (Option.some.inj decoded).symm

/-! Decoding comes back to the start before an encoded text, whatever bytes are before it. -/

theorem encodeChar_begins (c : Char) :
    ∃ byte rest, encodeChar c = byte :: rest ∧ (byte.toNat < 0x80 ∨ 0xBF < byte.toNat) := by
  have valid := toNat_valid c
  unfold encodeChar
  generalize c.toNat = n at valid
  dsimp only
  split
  · exact ⟨_, _, rfl, by rw [toNat_toUInt8 (by omega)]; omega⟩
  split
  · exact ⟨_, _, rfl, by rw [toNat_toUInt8 (by omega)]; omega⟩
  split
  · exact ⟨_, _, rfl, by rw [toNat_toUInt8 (by omega)]; omega⟩
  · exact ⟨_, _, rfl, by rw [toNat_toUInt8 (by omega)]; omega⟩

def State.Within : State → Prop
  | .start => True
  | .inside _ low high _ => 0x80 ≤ low ∧ high ≤ 0xBF

theorem within_begin (byte : UInt8) : (begin byte.toNat).2.Within := by
  rcases begin_cases byte with ⟨_, began⟩ | began | ⟨missing, low, high, value, began, _, bounds⟩
  · rw [began]
    trivial
  · rw [began]
    trivial
  · rw [began]
    exact bounds

theorem within_step (state : State) (byte : UInt8) : (step state byte.toNat).2.Within := by
  cases state with
  | start => exact within_begin byte
  | inside missing low high value =>
      rw [step]
      split
      · cases missing with
        | zero => trivial
        | succ missing => exact ⟨Nat.le_refl _, Nat.le_refl _⟩
      · exact within_begin byte

theorem decodeFrom_append_encodeChars (state : State) (within : state.Within) (bytes : Bytes)
    (text : List Char) :
    decodeFrom state (bytes ++ encodeChars text) = decodeFrom state bytes ++ text.map some := by
  induction bytes generalizing state with
  | nil =>
      cases state with
      | start => exact decodeFrom_encodeChars text
      | inside missing low high value =>
          cases text with
          | nil => rfl
          | cons c rest =>
              have decoded := decodeFrom_encodeChars (c :: rest)
              obtain ⟨byte, others, encoded, begins⟩ := encodeChar_begins c
              obtain ⟨lowBound, highBound⟩ := within
              rw [encodeChars_cons, encoded] at decoded
              rw [List.nil_append, encodeChars_cons, encoded, List.cons_append,
                decodeFrom_broken _ (by omega), ← List.cons_append, decoded]
              rfl
  | cons byte bytes ih =>
      rw [List.cons_append, decodeFrom_cons, decodeFrom_cons, ih _ (within_step state byte),
        List.append_assoc]

theorem decodeLossy_append_encode (bytes : Bytes) (text : String) :
    decodeLossy (bytes ++ encode text) = decodeLossy bytes ++ text := by
  have decoded := decodeFrom_append_encodeChars .start trivial bytes text.toList
  rw [decodeLossy, decode, encode, decoded, List.map_append, List.map_map, String.ofList_append]
  simp [decodeLossy, decode, Function.comp_def]

theorem decodeLossy_encode (text : String) : decodeLossy (encode text) = text := by
  have shown := decodeLossy_append_encode [] text
  simpa [decodeLossy, decode, decodeFrom] using shown

/-! How many bytes a text takes. -/

theorem size_cons (c : Char) (rest : List Char) : size (c :: rest) = c.utf8Size + size rest :=
  rfl

theorem size_append (before after : List Char) :
    size (before ++ after) = size before + size after := by
  induction before with
  | nil => simp [size]
  | cons c before ih =>
      rw [List.cons_append, size_cons, size_cons, ih, Nat.add_assoc]

theorem size_pos {text : List Char} (some? : text ≠ []) : 0 < size text := by
  cases text with
  | nil => exact absurd rfl some?
  | cons c rest =>
      have first := c.utf8Size_pos
      rw [size_cons]
      omega

end RomCatalog.Utf8
