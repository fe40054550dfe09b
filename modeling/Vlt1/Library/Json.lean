import Mathlib.Data.Nat.Digits.Lemmas
import Vlt1.Library.Bytes

/-!
# JSON text

String literals, decimal numbers and objects, as a compact writer puts them out. Each says where it ends
(`string_append_inj`, `number_append_inj`), so that equal texts of one shape have equal parts, and its length
is bounded by that of what it is made of.
-/

namespace Json

/-- A hexadecimal digit. -/
def hexDigit (n : UInt8) : UInt8 := if n < 10 then 48 + n else 87 + n

/-- A byte within a string literal. -/
def escapeByte (b : UInt8) : Bytes :=
  if b = 34 then [92, 34]
  else if b = 92 then [92, 92]
  else if b = 8 then [92, 98]
  else if b = 9 then [92, 116]
  else if b = 10 then [92, 110]
  else if b = 12 then [92, 102]
  else if b = 13 then [92, 114]
  else if b < 32 then [92, 117, 48, 48, 48 + b / 16, hexDigit (b % 16)]
  else [b]

/-- A string literal. -/
def string (t : Bytes) : Bytes := 34 :: (t.flatMap escapeByte ++ [34])

/-- The UTF-8 bytes of a string. -/
def utf8 (s : String) : Bytes := s.toList.flatMap String.utf8EncodeChar

/-- A field of an object. -/
def field (name : String) (value : Bytes) : Bytes := string (utf8 name) ++ 58 :: value

/-- An object with at least one field. -/
def object (first : Bytes) (others : List Bytes) : Bytes :=
  123 :: (first ++ (others.flatMap (44 :: ·) ++ [125]))

/-- A natural number in decimal. -/
def number (n : ℕ) : Bytes :=
  if n = 0 then [48] else (Nat.digits 10 n).reverse.map fun d => UInt8.ofNat (48 + d)

/-- A byte that stands for itself in a string literal. -/
def Plain (b : UInt8) : Prop := 32 ≤ b ∧ b ≠ 34 ∧ b ≠ 92

instance (b : UInt8) : Decidable (Plain b) := inferInstanceAs (Decidable (_ ∧ _))

/-! ### How long it is -/

/-- No byte takes more than the six characters of a Unicode escape. -/
theorem length_escapeByte_le (b : UInt8) : (escapeByte b).length ≤ 6 := by
  unfold escapeByte
  split_ifs <;> simp

theorem escapeByte_of_plain {b : UInt8} (h : Plain b) : escapeByte b = [b] := by
  obtain ⟨hle, hquote, hslash⟩ := h
  have hne : ∀ c : UInt8, c < 32 → b ≠ c := by
    rintro c hc rfl
    exact absurd hle (UInt8.not_le.mpr hc)
  rw [escapeByte, if_neg hquote, if_neg hslash, if_neg (hne 8 (by decide)),
    if_neg (hne 9 (by decide)), if_neg (hne 10 (by decide)), if_neg (hne 12 (by decide)),
    if_neg (hne 13 (by decide)), if_neg (UInt8.not_lt.mpr hle)]

theorem length_string_le (t : Bytes) : (string t).length ≤ 6 * t.length + 2 := by
  have hbody : (t.flatMap escapeByte).length ≤ 6 * t.length := by
    induction t with
    | nil => simp
    | cons b t ih =>
      have hb := length_escapeByte_le b
      rw [List.flatMap_cons, List.length_append, List.length_cons]
      omega
  rw [string, List.length_cons, List.length_append, List.length_singleton]
  omega

theorem length_string_of_plain {t : Bytes} (h : ∀ b ∈ t, Plain b) :
    (string t).length = t.length + 2 := by
  have hbody : t.flatMap escapeByte = t := by
    induction t with
    | nil => rfl
    | cons b t ih =>
      obtain ⟨hb, ht⟩ := List.forall_mem_cons.mp h
      rw [List.flatMap_cons, escapeByte_of_plain hb, ih ht, List.singleton_append]
  rw [string, hbody, List.length_cons, List.length_append, List.length_singleton]

/-- A character takes at most four bytes. -/
theorem length_utf8_le (s : String) : (utf8 s).length ≤ 4 * s.length := by
  rw [utf8, ← String.length_toList]
  induction s.toList with
  | nil => simp
  | cons c l ih =>
    have hc := c.utf8Size_le_four
    rw [List.flatMap_cons, List.length_append, String.length_utf8EncodeChar, List.length_cons]
    omega

/-- The literal of a short text is short. -/
theorem length_name_le {s : String} (h : s.length ≤ 64) : (string (utf8 s)).length ≤ 1600 := by
  have hstring := length_string_le (utf8 s)
  have hutf8 := length_utf8_le s
  omega

theorem length_field (name : String) (value : Bytes) :
    (field name value).length = (string (utf8 name)).length + value.length + 1 := by
  rw [field, List.length_append, List.length_cons]
  omega

/-- A field with a short name. -/
theorem length_field_le {name : String} {value : Bytes} {n : ℕ} (hname : name.length ≤ 64)
    (hvalue : value.length ≤ n) : (field name value).length ≤ n + 1601 := by
  have hstring := length_name_le hname
  rw [length_field]
  omega

theorem length_object (first : Bytes) (others : List Bytes) :
    (object first others).length =
      first.length + (others.map fun f => f.length + 1).sum + 2 := by
  rw [object, List.length_cons, List.length_append, List.length_append, List.length_flatMap,
    List.length_singleton]
  show first.length + ((others.map fun f => f.length + 1).sum + 1) + 1 = _
  omega

/-- A 64-bit number has at most twenty digits. -/
theorem length_number_le (n : UInt64) : (number n.toNat).length ≤ 20 := by
  unfold number
  split
  · simp
  · rw [List.length_map, List.length_reverse, Nat.digits_length_le_iff (by decide)]
    exact n.toNat_lt.trans (by decide)

/-! ### Which bytes it has -/

/-- No control byte was left as it is. -/
theorem ne_zero_of_mem_escapeByte {b c : UInt8} (h : c ∈ escapeByte b) : c ≠ 0 := by
  have hall : ∀ n < 256, 0 ∉ escapeByte (UInt8.ofNat n) := by decide +kernel
  rintro rfl
  refine hall b.toNat b.toNat_lt ?_
  rwa [UInt8.ofNat_toNat]

/-- A NUL byte is always escaped. -/
theorem ne_zero_of_mem_string {t : Bytes} {c : UInt8} (h : c ∈ string t) : c ≠ 0 := by
  simp only [string, List.mem_cons, List.mem_append, List.mem_flatMap, List.not_mem_nil,
    or_false] at h
  rcases h with rfl | ⟨b, -, hb⟩ | rfl
  · decide
  · exact ne_zero_of_mem_escapeByte hb
  · decide

theorem ne_zero_of_mem_field {name : String} {value : Bytes} (hvalue : ∀ c ∈ value, c ≠ 0) {c : UInt8}
    (h : c ∈ field name value) : c ≠ 0 := by
  rw [field, List.mem_append, List.mem_cons] at h
  rcases h with h | rfl | h
  · exact ne_zero_of_mem_string h
  · decide
  · exact hvalue c h

theorem ne_zero_of_mem_object {first other : Bytes} (hfirst : ∀ c ∈ first, c ≠ 0)
    (hother : ∀ c ∈ other, c ≠ 0) {c : UInt8} (h : c ∈ object first [other]) : c ≠ 0 := by
  simp only [object, List.flatMap_cons, List.flatMap_nil, List.append_nil, List.mem_cons,
    List.mem_append, List.not_mem_nil, or_false] at h
  rcases h with rfl | h | (rfl | h) | rfl
  · decide
  · exact hfirst c h
  · decide
  · exact hother c h
  · decide

/-! ### What it determines -/

/-- The value of a hexadecimal digit. -/
def hexValue (d : UInt8) : UInt8 := if d < 58 then d - 48 else d - 87

/-- Take one byte of a string literal. -/
def unescape : Bytes → Option (UInt8 × Bytes)
  | [] => none
  | b :: rest =>
    if b ≠ 92 then some (b, rest)
    else
      match rest with
      | [] => none
      | c :: rest =>
        if c = 34 then some (34, rest)
        else if c = 92 then some (92, rest)
        else if c = 98 then some (8, rest)
        else if c = 116 then some (9, rest)
        else if c = 110 then some (10, rest)
        else if c = 102 then some (12, rest)
        else if c = 114 then some (13, rest)
        else some (16 * (rest.getD 2 0 - 48) + hexValue (rest.getD 3 0), rest.drop 4)

/-- Each escape is read back as its byte. -/
theorem unescape_escapeByte (b : UInt8) (u : Bytes) :
    unescape (escapeByte b ++ u) = some (b, u) := by
  unfold escapeByte
  split_ifs with h1 h2 h3 h4 h5 h6 h7 h8
  · rw [h1]; rfl
  · rw [h2]; rfl
  · rw [h3]; rfl
  · rw [h4]; rfl
  · rw [h5]; rfl
  · rw [h6]; rfl
  · rw [h7]; rfl
  · have hhex : ∀ n < 32, 16 * (48 + UInt8.ofNat n / 16 - 48) +
        hexValue (hexDigit (UInt8.ofNat n % 16)) = UInt8.ofNat n := by decide
    have hb := hhex b.toNat (UInt8.lt_iff_toNat_lt.mp h8)
    rw [UInt8.ofNat_toNat] at hb
    show some (16 * (48 + b / 16 - 48) + hexValue (hexDigit (b % 16)), u) = some (b, u)
    rw [hb]
  · simp [unescape, h2]

/-- A literal ends where its text does. -/
theorem string_append_inj {t t' : Bytes} {u v : Bytes} (h : string t ++ u = string t' ++ v) :
    t = t' ∧ u = v := by
  simp only [string, List.cons_append, List.append_assoc, List.cons.injEq, true_and] at h
  -- the closing quote is not the beginning of a byte
  have hquote : ∀ (b : UInt8) (x y : Bytes), escapeByte b ++ x ≠ [34] ++ y := by
    intro b x y heq
    have hb := unescape_escapeByte b x
    rw [heq] at hb
    obtain ⟨rfl, -⟩ : 34 = b ∧ y = x := by simpa [unescape] using hb
    have hslash : (34 : UInt8) = 92 := by simpa [escapeByte] using (congrArg List.head? heq).symm
    exact absurd hslash (by decide)
  induction t generalizing t' with
  | nil =>
    cases t' with
    | nil => exact ⟨rfl, by simpa using h⟩
    | cons c t' =>
      rw [List.flatMap_cons, List.append_assoc] at h
      exact absurd h.symm (hquote c _ _)
  | cons b t ih =>
    cases t' with
    | nil =>
      rw [List.flatMap_cons, List.append_assoc] at h
      exact absurd h (hquote b _ _)
    | cons c t' =>
      simp only [List.flatMap_cons, List.append_assoc] at h
      have hfirst := congrArg unescape h
      rw [unescape_escapeByte, unescape_escapeByte] at hfirst
      obtain ⟨rfl, hrest⟩ := Prod.mk.inj (Option.some.inj hfirst)
      obtain ⟨rfl, rfl⟩ := ih hrest
      exact ⟨rfl, rfl⟩

/-- Texts with the same bytes are the same. -/
theorem utf8_injective : Function.Injective utf8 := by
  intro s t h
  have hbytes : s.toList.utf8Encode = t.toList.utf8Encode := congrArg List.toByteArray h
  rw [String.utf8Encode_toList, String.utf8Encode_toList] at hbytes
  exact String.toByteArray_inj.mp hbytes

/-- Fields of one name have their values in the same place. -/
theorem field_append_inj {name : String} {x y u v : Bytes}
    (h : field name x ++ u = field name y ++ v) : x ++ u = y ++ v := by
  simp only [field, List.append_assoc, List.cons_append] at h
  exact (List.cons.inj (List.append_cancel_left h)).2

/-- A field with a text. -/
theorem field_string_inj {name : String} {t t' : Bytes} {u v : Bytes}
    (h : field name (string t) ++ u = field name (string t') ++ v) : t = t' ∧ u = v :=
  string_append_inj (field_append_inj h)

theorem isDigit_of_mem_number {n : ℕ} {b : UInt8} (h : b ∈ number n) : 48 ≤ b ∧ b ≤ 57 := by
  unfold number at h
  split at h
  · rw [List.mem_singleton.mp h]
    decide
  · obtain ⟨d, hd, rfl⟩ := List.mem_map.mp h
    have hlt : d < 10 := Nat.digits_lt_base (by decide) (List.mem_reverse.mp hd)
    have hcases : ∀ d < 10, 48 ≤ UInt8.ofNat (48 + d) ∧ UInt8.ofNat (48 + d) ≤ 57 := by decide
    exact hcases d hlt

/-- Numbers with the same digits are the same. -/
theorem number_injective : Function.Injective number := by
  have hzero : ∀ n, n ≠ 0 → number n ≠ [48] := by
    intro n hn h
    rw [number, if_neg hn] at h
    -- a single digit that is zero
    have hlength := congrArg List.length h
    rw [List.length_map, List.length_reverse, List.length_singleton] at hlength
    obtain ⟨d, hd⟩ := List.length_eq_one_iff.mp hlength
    have hlt : d < 10 := Nat.digits_lt_base (m := n) (by decide) (by simp [hd])
    have hn' := Nat.ofDigits_digits 10 n
    rw [hd] at h hn'
    obtain rfl : d = n := by simpa using hn'
    have hcases : ∀ d < 10, d ≠ 0 → UInt8.ofNat (48 + d) ≠ 48 := by decide
    exact hcases d hlt hn (by simpa using h)
  intro n m h
  by_cases hn : n = 0 <;> by_cases hm : m = 0
  · rw [hn, hm]
  · rw [hn] at h
    exact absurd h.symm (hzero m hm)
  · rw [hm] at h
    exact absurd h (hzero n hn)
  · rw [number, number, if_neg hn, if_neg hm] at h
    -- the digits are read off again
    have hback : ∀ k, ((Nat.digits 10 k).reverse.map fun d => UInt8.ofNat (48 + d)).map
        (fun b => b.toNat - 48) = (Nat.digits 10 k).reverse := by
      intro k
      have hcases : ∀ d < 10, (UInt8.ofNat (48 + d)).toNat - 48 = d := by decide
      rw [List.map_map]
      refine (List.map_congr_left fun d hd => ?_).trans (List.map_id _)
      exact hcases d (Nat.digits_lt_base (by decide) (List.mem_reverse.mp hd))
    have hdigits : Nat.digits 10 n = Nat.digits 10 m := by
      rw [← List.reverse_inj, ← hback n, ← hback m, h]
    rw [← Nat.ofDigits_digits 10 n, hdigits, Nat.ofDigits_digits]

/-- A number ends where its digits do. -/
theorem number_append_inj {n m : ℕ} {b : UInt8} {u v : Bytes} (hb : ¬(48 ≤ b ∧ b ≤ 57))
    (h : number n ++ b :: u = number m ++ b :: v) : n = m ∧ u = v := by
  have htake : ∀ n u, (number n ++ b :: u).takeWhile (fun b => decide (48 ≤ b ∧ b ≤ 57)) = number n := by
    intro n u
    rw [List.takeWhile_append_of_pos fun c hc => decide_eq_true (isDigit_of_mem_number hc),
      List.takeWhile_cons_of_neg (by simpa using hb), List.append_nil]
  have hnumber : number n = number m := by rw [← htake n u, h, htake]
  rw [hnumber] at h
  exact ⟨number_injective hnumber, (List.cons.inj (List.append_cancel_left h)).2⟩

end Json
