import Mathlib.Data.List.TakeWhile
import Mathlib.Tactic.IntervalCases

/-!
The query part of a URL.

* `decodeText_encodeText`: a percent-encoded text reads back as it was, `mem_encode`: it has only
  unreserved characters and `%`;
* `parseQuery_queryText`: the parameters of a query read back in their order;
* `cut_append`: a URL is cut where its query begins.
-/

namespace Url

/-! ## Percent encoding -/

/-- The characters of RFC 3986 that stand for themselves anywhere. -/
def isUnreserved (c : Char) : Bool :=
  decide ('0' ≤ c ∧ c ≤ '9') || decide ('A' ≤ c ∧ c ≤ 'Z') || decide ('a' ≤ c ∧ c ≤ 'z') ||
    c == '-' || c == '.' || c == '_' || c == '~'

def hexDigit (n : Nat) : Char := "0123456789ABCDEF".toList.getD n '0'

def hexValue (c : Char) : Option Nat :=
  if '0' ≤ c ∧ c ≤ '9' then some (c.toNat - '0'.toNat)
  else if 'A' ≤ c ∧ c ≤ 'F' then some (c.toNat - 'A'.toNat + 10)
  else if 'a' ≤ c ∧ c ≤ 'f' then some (c.toNat - 'a'.toNat + 10)
  else none

def encodeByte (b : UInt8) : List Char :=
  if isUnreserved (Char.ofUInt8 b) then [Char.ofUInt8 b]
  else ['%', hexDigit (b.toNat / 16), hexDigit (b.toNat % 16)]

def encode (bytes : List UInt8) : List Char := bytes.flatMap encodeByte

/-- A `%` without two digits behind it stands for itself. -/
def decode : List Char → List UInt8
  | '%' :: h :: l :: s =>
    match hexValue h, hexValue l with
    | some x, some y => UInt8.ofNat (16 * x + y) :: decode s
    | _, _ => String.utf8EncodeChar '%' ++ decode (h :: l :: s)
  | c :: s => String.utf8EncodeChar c ++ decode s
  | [] => []

theorem decode_cons {c : Char} (hc : c ≠ '%') (s : List Char) :
    decode (c :: s) = String.utf8EncodeChar c ++ decode s := by
  rw [decode.eq_2]
  rintro h l s' rfl -
  exact hc rfl

/-- What holds of each of the 256 values holds of every byte. -/
theorem forall_byte {P : UInt8 → Prop} (h : ∀ n : Fin 256, P (UInt8.ofNat n)) (b : UInt8) :
    P b := by
  have hb := h ⟨b.toNat, b.toNat_lt⟩
  rwa [UInt8.ofNat_toNat] at hb

theorem unreserved_byte (b : UInt8) : isUnreserved (Char.ofUInt8 b) = true →
    Char.ofUInt8 b ≠ '%' ∧ String.utf8EncodeChar (Char.ofUInt8 b) = [b] :=
  forall_byte (P := fun b => isUnreserved (Char.ofUInt8 b) = true →
    Char.ofUInt8 b ≠ '%' ∧ String.utf8EncodeChar (Char.ofUInt8 b) = [b]) (by decide +kernel) b

theorem hexValue_hexDigit {n : Nat} (h : n < 16) : hexValue (hexDigit n) = some n := by
  interval_cases n <;> decide

theorem isUnreserved_hexDigit {n : Nat} (h : n < 16) : isUnreserved (hexDigit n) = true := by
  interval_cases n <;> decide

theorem decode_encodeByte (b : UInt8) (s : List Char) :
    decode (encodeByte b ++ s) = b :: decode s := by
  have hb := b.toNat_lt
  unfold encodeByte
  split
  · rename_i hplain
    obtain ⟨hne, hbyte⟩ := unreserved_byte b hplain
    rw [List.singleton_append, decode_cons hne, hbyte, List.singleton_append]
  · have hhigh : hexValue (hexDigit (b.toNat / 16)) = some (b.toNat / 16) :=
      hexValue_hexDigit (by omega)
    have hlow : hexValue (hexDigit (b.toNat % 16)) = some (b.toNat % 16) :=
      hexValue_hexDigit (by omega)
    simp only [List.cons_append, List.nil_append, decode, hhigh, hlow]
    rw [Nat.div_add_mod, UInt8.ofNat_toNat]

theorem decode_encode (bytes : List UInt8) : decode (encode bytes) = bytes := by
  induction bytes with
  | nil => rfl
  | cons b bytes ih =>
    show decode (encodeByte b ++ encode bytes) = b :: bytes
    rw [decode_encodeByte, ih]

theorem mem_encode {bytes : List UInt8} {c : Char} (h : c ∈ encode bytes) :
    isUnreserved c = true ∨ c = '%' := by
  obtain ⟨b, _, hc⟩ := List.mem_flatMap.mp h
  have hb := b.toNat_lt
  unfold encodeByte at hc
  split at hc
  · rename_i hplain
    rw [List.mem_singleton.mp hc]
    exact Or.inl hplain
  · rcases List.mem_cons.mp hc with rfl | hc
    · exact Or.inr rfl
    · left
      rcases List.mem_cons.mp hc with rfl | hc
      · exact isUnreserved_hexDigit (by omega)
      · rw [List.mem_singleton.mp hc]
        exact isUnreserved_hexDigit (by omega)

/-! ### Texts -/

def encodeText (s : List Char) : List Char := encode (s.flatMap String.utf8EncodeChar)

/-- The text of the decoded bytes, if they are UTF-8. -/
def decodeText (s : List Char) : Option (List Char) :=
  (decode s).toByteArray.utf8Decode?.map Array.toList

/-- An unreserved character is one byte of UTF-8, which is written as the character. -/
theorem encode_unreserved {c : Char} (h : isUnreserved c = true) :
    encode (String.utf8EncodeChar c) = [c] := by
  have hsmall : c.toNat < 256 := by
    have hbelow : ∀ d : Char, d.toNat < 256 → c ≤ d → c.toNat < 256 := by
      intro d hd hcd
      exact lt_of_le_of_lt (UInt32.le_iff_toNat_le.mp hcd) hd
    unfold isUnreserved at h
    simp only [Bool.or_eq_true, decide_eq_true_eq, beq_iff_eq] at h
    rcases h with (((((h | h) | h) | rfl) | rfl) | rfl) | rfl
    · exact hbelow '9' (by decide) h.2
    · exact hbelow 'Z' (by decide) h.2
    · exact hbelow 'z' (by decide) h.2
    all_goals decide
  have hbyte : Char.ofUInt8 (UInt8.ofNat c.toNat) = c := by
    apply Char.ext
    apply UInt32.toNat_inj.mp
    show (UInt8.ofNat c.toNat).toNat = c.toNat
    rw [UInt8.toNat_ofNat', Nat.mod_eq_of_lt hsmall]
  obtain ⟨_, hutf8⟩ := unreserved_byte (UInt8.ofNat c.toNat) (by rwa [hbyte])
  rw [hbyte] at hutf8
  rw [hutf8]
  simp [encode, encodeByte, hbyte, h]

theorem encodeText_unreserved {s : List Char} (h : ∀ c ∈ s, isUnreserved c = true) :
    encodeText s = s := by
  induction s with
  | nil => rfl
  | cons c s ih =>
    rw [List.forall_mem_cons] at h
    have hsplit : encodeText (c :: s) = encode (String.utf8EncodeChar c) ++ encodeText s := by
      simp only [encodeText, encode, List.flatMap_cons, List.flatMap_append]
    rw [hsplit, encode_unreserved h.1, ih h.2]
    rfl

theorem decodeText_encodeText (s : List Char) : decodeText (encodeText s) = some s := by
  have hbytes : (s.flatMap String.utf8EncodeChar).toByteArray = s.utf8Encode := rfl
  rw [decodeText, encodeText, decode_encode, hbytes, List.utf8Decode?_utf8Encode]
  rfl

/-! ## Queries -/

/-- The text of a query. -/
def queryText (params : List (List Char × List Char)) : List Char :=
  List.intercalate ['&'] (params.map fun p => p.1 ++ '=' :: p.2)

theorem mem_queryText {params : List (List Char × List Char)} {c : Char}
    (h : c ∈ queryText params) : c = '&' ∨ c = '=' ∨ ∃ p ∈ params, c ∈ p.1 ∨ c ∈ p.2 := by
  induction params with
  | nil => simp [queryText] at h
  | cons p rest ih =>
    have hfirst : c ∈ p.1 ++ '=' :: p.2 →
        c = '&' ∨ c = '=' ∨ ∃ p' ∈ p :: rest, c ∈ p'.1 ∨ c ∈ p'.2 := by
      intro hc
      rcases List.mem_append.mp hc with hname | hvalue
      · exact Or.inr (Or.inr ⟨p, List.mem_cons_self, Or.inl hname⟩)
      · rcases List.mem_cons.mp hvalue with heq | hvalue
        · exact Or.inr (Or.inl heq)
        · exact Or.inr (Or.inr ⟨p, List.mem_cons_self, Or.inr hvalue⟩)
    cases rest with
    | nil => exact hfirst (by simpa [queryText] using h)
    | cons q rest =>
      have hsplit : queryText (p :: q :: rest) =
          (p.1 ++ '=' :: p.2) ++ '&' :: queryText (q :: rest) := by
        simp [queryText, List.intercalate_cons_cons]
      rw [hsplit] at h
      rcases List.mem_append.mp h with hc | hc
      · exact hfirst hc
      · rcases List.mem_cons.mp hc with heq | hc
        · exact Or.inl heq
        · rcases ih hc with heq | heq | ⟨p', hp', hmem⟩
          · exact Or.inl heq
          · exact Or.inr (Or.inl heq)
          · exact Or.inr (Or.inr ⟨p', List.mem_cons_of_mem p hp', hmem⟩)

/-- A parameter, cut at its first `=`. -/
def parseParam (s : List Char) : List Char × List Char :=
  (s.takeWhile (· ≠ '='), (s.dropWhile (· ≠ '=')).drop 1)

def parseQuery (s : List Char) : List (List Char × List Char) := (s.splitOn '&').map parseParam

theorem parseParam_append {name value : List Char} (h : '=' ∉ name) :
    parseParam (name ++ '=' :: value) = (name, value) := by
  have hall : ∀ c ∈ name, decide (c ≠ '=') = true := by
    intro c hc
    exact decide_eq_true fun heq => h (heq ▸ hc)
  unfold parseParam
  rw [List.takeWhile_append_of_pos hall, List.dropWhile_append_of_pos hall]
  simp

theorem parseQuery_queryText {params : List (List Char × List Char)} (hne : params ≠ [])
    (h : ∀ p ∈ params, ('=' ∉ p.1 ∧ '&' ∉ p.1) ∧ '&' ∉ p.2) :
    parseQuery (queryText params) = params := by
  have hsplit : (queryText params).splitOn '&' = params.map fun p => p.1 ++ '=' :: p.2 := by
    refine List.splitOn_intercalate '&' ?_ (by simpa using hne)
    intro s hs hmem
    obtain ⟨p, hp, rfl⟩ := List.mem_map.mp hs
    rcases List.mem_append.mp hmem with hname | hvalue
    · exact (h p hp).1.2 hname
    · rcases List.mem_cons.mp hvalue with heq | hvalue
      · cases heq
      · exact (h p hp).2 hvalue
  rw [parseQuery, hsplit, List.map_map]
  conv_rhs => rw [← List.map_id params]
  exact List.map_congr_left fun p hp => parseParam_append (h p hp).1.1

/-! ## Cutting a URL -/

/-- What stands before the first `?`, and the query, which ends where a fragment begins. -/
def cut (url : List Char) : List Char × List Char :=
  let url := url.takeWhile (· ≠ '#')
  (url.takeWhile (· ≠ '?'), (url.dropWhile (· ≠ '?')).drop 1)

theorem cut_append {base query : List Char} (hbase : '?' ∉ base) (hfragment : '#' ∉ base)
    (hquery : '#' ∉ query) : cut (base ++ '?' :: query) = (base, query) := by
  have hwhole : (base ++ '?' :: query).takeWhile (· ≠ '#') = base ++ '?' :: query := by
    rw [List.takeWhile_eq_self_iff]
    intro c hc
    refine decide_eq_true ?_
    rintro rfl
    rcases List.mem_append.mp hc with hc | hc
    · exact hfragment hc
    · rcases List.mem_cons.mp hc with heq | hc
      · cases heq
      · exact hquery hc
  have hall : ∀ c ∈ base, decide (c ≠ '?') = true := by
    intro c hc
    exact decide_eq_true fun heq => hbase (heq ▸ hc)
  unfold cut
  rw [hwhole]
  simp only
  rw [List.takeWhile_append_of_pos hall, List.dropWhile_append_of_pos hall]
  simp

end Url
