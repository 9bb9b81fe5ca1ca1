/-!
# The bytes of a text

In UTF-8 the bytes of a text are those of its characters, one after another, and no two texts have
the same bytes.
-/

namespace HeaderBinding
namespace Text

/-- The bytes of a text in UTF-8. -/
def utf8 (text : String) : List UInt8 :=
  text.toUTF8.toList

/-- What is listed first stands backwards in `read`. -/
private theorem toList_loop (bytes : ByteArray) (place : Nat) (read : List UInt8) :
    ByteArray.toList.loop bytes place read = read.reverse ++ bytes.data.toList.drop place := by
  fun_induction ByteArray.toList.loop bytes place read with
  | case1 place read inside induction =>
      have bound : place < bytes.data.toList.length := inside
      have next : bytes.get! place = bytes.data.toList[place] :=
        getElem!_pos bytes.data place inside
      rw [induction, List.drop_eq_getElem_cons bound, next, List.reverse_cons, List.append_assoc,
        List.singleton_append]
  | case2 place read outside =>
      have bound : bytes.data.toList.length ≤ place := Nat.le_of_not_lt outside
      rw [List.drop_eq_nil_of_le bound, List.append_nil]

theorem utf8_eq_data (text : String) : utf8 text = text.toByteArray.data.toList := by
  rw [utf8, ByteArray.toList, toList_loop]
  rfl

theorem utf8_append (text rest : String) : utf8 (text ++ rest) = utf8 text ++ utf8 rest := by
  simp only [utf8_eq_data, String.toByteArray_append, ByteArray.data_append, Array.toList_append]

theorem utf8_inj {text other : String} : utf8 text = utf8 other ↔ text = other := by
  rw [utf8_eq_data, utf8_eq_data, Array.toList_inj, ← ByteArray.ext_iff, String.toByteArray_inj]

end Text
end HeaderBinding
