import RT7.Base.Text

/-!
# UTF-8 and fields that end with a zero byte

* `encodeUtf8`, `decodeUtf8`   `text.encode()` and `raw.decode()`, with `decodeUtf8_encodeUtf8`;
* `zero_not_mem_encodeUtf8`   a text without a zero character is encoded without a zero byte;
* `fields`, `terminated`   the fields of a stream in which each one is followed by a zero byte;
* `fields_terminated`   the fields are read back.
-/

namespace RT7.Text

def encodeUtf8 (s : String) : Bytes := s.toList.flatMap String.utf8EncodeChar

def decodeUtf8 (raw : Bytes) : Except Py.Exn String :=
  Py.require (String.fromUTF8? raw.toByteArray) .unicodeDecodeError

variable {s : String} {c : Char}

theorem toByteArray_encodeUtf8 (s : String) : (encodeUtf8 s).toByteArray = s.toByteArray := by
  rw [← String.utf8Encode_toList]
  rfl

theorem decodeUtf8_encodeUtf8 (s : String) : decodeUtf8 (encodeUtf8 s) = .ok s := by
  have hvalid : s.toByteArray.IsValidUTF8 := s.isValidUTF8
  rw [decodeUtf8, toByteArray_encodeUtf8, String.fromUTF8?, dif_pos hvalid]
  rfl

theorem ofNat_ne_zero {n : Nat} (hpos : 0 < n) (hlt : n < 256) : (0 : UInt8) ≠ UInt8.ofNat n := by
  intro e
  have h : (0 : UInt8).toNat = (UInt8.ofNat n).toNat := congrArg UInt8.toNat e
  rw [UInt8.toNat_ofNat', Nat.mod_eq_of_lt hlt] at h
  exact absurd h (Nat.ne_of_lt hpos)

theorem zero_mem_utf8EncodeChar (h : 0 ∈ String.utf8EncodeChar c) : c = '\x00' := by
  unfold String.utf8EncodeChar at h
  dsimp only at h
  split_ifs at h with h1 h2 h3
  · have hzero : c.val.toNat = 0 := by
      by_contra hne
      exact ofNat_ne_zero (Nat.pos_of_ne_zero hne) (by omega) (List.mem_singleton.mp h)
    exact Char.ext (UInt32.toNat_inj.mp hzero)
  -- the bytes of a character beyond ASCII are at least 0x80
  all_goals
    exfalso
    simp only [List.mem_cons, List.not_mem_nil, or_false] at h
  · obtain h | h := h
    · exact ofNat_ne_zero (by omega) (by omega) h
    · exact ofNat_ne_zero (by omega) (by omega) h
  · obtain h | h | h := h
    · exact ofNat_ne_zero (by omega) (by omega) h
    · exact ofNat_ne_zero (by omega) (by omega) h
    · exact ofNat_ne_zero (by omega) (by omega) h
  · obtain h | h | h | h := h
    · exact ofNat_ne_zero (by omega) (by omega) h
    · exact ofNat_ne_zero (by omega) (by omega) h
    · exact ofNat_ne_zero (by omega) (by omega) h
    · exact ofNat_ne_zero (by omega) (by omega) h

theorem zero_not_mem_encodeUtf8 (h : '\x00' ∉ s.toList) : 0 ∉ encodeUtf8 s := by
  intro hmem
  obtain ⟨c, hc, hzero⟩ := List.mem_flatMap.mp hmem
  rw [zero_mem_utf8EncodeChar hzero] at hc
  exact h hc

/-! ## fields that end with a zero byte -/

/-- The pieces between zero bytes, without the empty one after the last. -/
def fields (stream : Bytes) : List Bytes :=
  let items := stream.splitOn 0
  if items.getLast? = some [] then items.dropLast else items

def terminated (items : List Bytes) : Bytes := items.flatMap fun item => item ++ [0]

theorem splitOn_terminated {items : List Bytes} (h : ∀ item ∈ items, 0 ∉ item) :
    (terminated items).splitOn 0 = items ++ [[]] := by
  induction items with
  | nil => rfl
  | cons item items ih =>
    obtain ⟨hitem, hitems⟩ := List.forall_mem_cons.mp h
    have e : terminated (item :: items) = item ++ 0 :: terminated items := by
      rw [terminated, List.flatMap_cons, List.append_assoc]
      rfl
    rw [e, List.splitOn_append_cons_self_of_not_mem hitem, ih hitems, List.cons_append]

/-- **Fields that end with a zero byte are read back**, when no other zero byte is in them. -/
theorem fields_terminated {items : List Bytes} (h : ∀ item ∈ items, 0 ∉ item) :
    fields (terminated items) = items := by
  rw [fields, splitOn_terminated h]
  rw [List.getLast?_concat, if_pos rfl, List.dropLast_concat]

end RT7.Text
