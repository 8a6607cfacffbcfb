import RomCatalog.Proofs.Utf8
import RomCatalog.Settings

/-!
Embedded paths. A name is put behind a start that depends on the settings alone, unless it is
absolute and takes the place of the whole path. Either way nothing of the name is lost, even where
bytes before it have to be shown as replacement characters.
-/

namespace RomCatalog.Path

theorem text_ofString (text : String) : (ofString text).text = text :=
  Utf8.decodeLossy_encode text

theorem join_of_isAbsolute {right : Path} (absolute : right.isAbsolute = true) (left : Path) :
    left.join right = right := by
  simp [join, absolute]

theorem join_of_not_isAbsolute {right : Path} (relative : right.isAbsolute = false) (left : Path) :
    left.join right = ⟨(left.join empty).bytes ++ right.bytes⟩ := by
  have emptyIsRelative : empty.isAbsolute = false := rfl
  simp only [join, relative, emptyIsRelative, Bool.false_eq_true, if_false]
  split
  · simp [empty]
  · simp [empty]

theorem isAbsolute_ofString_iff (text : String) :
    (ofString text).isAbsolute = true ↔ text.toList.head? = some '/' := by
  unfold isAbsolute ofString Utf8.encode
  cases written : text.toList with
  | nil => simp [Utf8.encodeChars]
  | cons c rest =>
      obtain ⟨byte, bytes, encoded, _⟩ := Utf8.encodeChar_begins c
      have first : (Utf8.encodeChars (c :: rest)).head? = some byte := by
        rw [Utf8.encodeChars_cons, encoded]
        rfl
      rw [first, beq_iff_eq, Option.some.injEq, List.head?_cons, Option.some.injEq]
      constructor
      · rintro rfl
        have decoded := Utf8.decodeFrom_encodeChar c []
        rw [encoded, List.append_nil, Utf8.decodeFrom_cons] at decoded
        have slash : some '/' = some c := (List.cons.inj decoded).1
        exact (Option.some.inj slash).symm
      · rintro rfl
        exact (List.cons.inj encoded).1.symm

theorem text_join_ofString {name : String} (relative : (ofString name).isAbsolute = false)
    (left : Path) : (left.join (ofString name)).text = (left.join empty).text ++ name := by
  rw [join_of_not_isAbsolute relative]
  exact Utf8.decodeLossy_append_encode (left.join empty).bytes name

theorem eq_of_text_join_eq {left right : String} (sameLength : left.length = right.length)
    (directory : Path)
    (same : (directory.join (ofString left)).text = (directory.join (ofString right)).text) :
    left = right := by
  have empty_of_append {start short long : String} (joined : long = start ++ short)
      (length : long.length = short.length) : long = short := by
    have noLength : start.length = 0 := by
      rw [joined, String.length_append] at length
      omega
    rw [joined, String.length_eq_zero_iff.mp noLength, String.empty_append]
  cases leftKind : (ofString left).isAbsolute with
  | true =>
      cases rightKind : (ofString right).isAbsolute with
      | true =>
          rwa [join_of_isAbsolute leftKind, join_of_isAbsolute rightKind, text_ofString,
            text_ofString] at same
      | false =>
          rw [join_of_isAbsolute leftKind, text_ofString, text_join_ofString rightKind] at same
          exact empty_of_append same sameLength
  | false =>
      cases rightKind : (ofString right).isAbsolute with
      | true =>
          rw [join_of_isAbsolute rightKind, text_ofString, text_join_ofString leftKind] at same
          exact (empty_of_append same.symm sameLength.symm).symm
      | false =>
          rw [text_join_ofString leftKind, text_join_ofString rightKind] at same
          exact (String.append_right_inj _).mp same

end RomCatalog.Path

namespace RomCatalog.Settings

theorem name_eq_of_embedPath_eq (settings : Settings) {left right : Rom}
    (sameLength : left.name.length = right.name.length)
    (same : settings.embedPath left = settings.embedPath right) : left.name = right.name := by
  unfold embedPath at same
  cases embedded : settings.embedding with
  | after start =>
      rw [embedded] at same
      exact (String.append_right_inj start).mp same
  | beside =>
      rw [embedded] at same
      exact Path.eq_of_text_join_eq sameLength _ same
  | absolute =>
      rw [embedded] at same
      exact Path.eq_of_text_join_eq sameLength _ same

end RomCatalog.Settings
