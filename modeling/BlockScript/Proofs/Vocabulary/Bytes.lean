import BlockScript.Vocabulary.Operation

/-!
# Patterns read off their bytes

The vocabulary is written in ASCII, where each byte of a string is a character.  `Text.ofString` reads a string in
this way as long as it can, which takes far fewer steps than to decode the bytes.  It gives the same text
(`Text.ofString_eq_toList`), so that a finite check of the vocabulary may compute with it.
-/

namespace BlockScript

namespace Text

/-- The characters whose codes are the bytes. -/
def ofBytes (bytes : List UInt8) : Text :=
  bytes.map fun b => Char.ofNat b.toNat

/-- The characters of a string, read off its bytes if these are ASCII. -/
def ofString (s : String) : Text :=
  let bytes := s.toByteArray.data.toList
  if bytes.all (· < 128) then ofBytes bytes else s.toList

private theorem ofBytes_utf8EncodeChar {c : Char} (h : ∀ b ∈ String.utf8EncodeChar c, b < 128) :
    ofBytes (String.utf8EncodeChar c) = [c] := by
  by_cases hc : c.val.toNat ≤ 127
  · have hbyte : (UInt8.ofNat c.val.toNat).toNat = c.val.toNat := Nat.mod_eq_of_lt (by omega)
    simp only [String.utf8EncodeChar, if_pos hc, ofBytes, List.map_cons, List.map_nil, hbyte]
    exact congrArg ([·]) (Char.ofNat_toNat c)
  · exfalso
    -- the first byte of a longer code is none of ASCII
    obtain ⟨n, tail, hn, hcode⟩ : ∃ n tail, 128 ≤ n % 256 ∧ String.utf8EncodeChar c = UInt8.ofNat n :: tail := by
      simp only [String.utf8EncodeChar, if_neg hc]
      split
      · exact ⟨_, _, by omega, rfl⟩
      · split <;> exact ⟨_, _, by omega, rfl⟩
    have hfirst := UInt8.lt_iff_toNat_lt.1 (h (UInt8.ofNat n) (hcode ▸ List.mem_cons_self))
    rw [UInt8.toNat_ofNat', show (128 : UInt8).toNat = 128 from rfl] at hfirst
    omega

private theorem ofBytes_utf8Encode {t : Text} (h : ∀ b ∈ t.flatMap String.utf8EncodeChar, b < 128) :
    ofBytes (t.flatMap String.utf8EncodeChar) = t := by
  induction t with
  | nil => rfl
  | cons c t ih =>
    rw [List.flatMap_cons] at h ⊢
    have hfirst := ofBytes_utf8EncodeChar fun b hb => h b (List.mem_append_left _ hb)
    have hrest := ih fun b hb => h b (List.mem_append_right _ hb)
    rw [ofBytes, List.map_append, ← ofBytes, ← ofBytes, hfirst, hrest, List.singleton_append]

theorem ofString_eq_toList (s : String) : ofString s = s.toList := by
  obtain ⟨t, rfl⟩ : ∃ t, s = String.ofList t := ⟨s.toList, String.ofList_toList.symm⟩
  have hbytes : (String.ofList t).toByteArray.data.toList = t.flatMap String.utf8EncodeChar := by
    rw [String.toByteArray_ofList, List.utf8Encode, List.data_toByteArray]
  rw [ofString, hbytes, String.toList_ofList]
  split
  · rename_i h
    exact ofBytes_utf8Encode fun b hb => of_decide_eq_true (List.all_eq_true.1 h b hb)
  · rfl

end Text

/-- The forms of an operation, with its patterns read off their bytes. -/
theorem Operation.forms_eq_ofString (op : Operation) : op.forms =
    ((op.pattern :: op.aliases).mapM fun pattern =>
      Pattern.form op.slots (Text.ofString pattern)).toOption.getD [] := by
  simp only [Text.ofString_eq_toList]
  rfl

end BlockScript
