/-
# UTF-8

Text as bytes and back.  Bytes are lists here, so that the wire forms
built over them are matched by their first bytes; the encoding itself is
the standard library's.

* `ofUtf8?_utf8`: the bytes of a text read back as that text;
* `ofUtf8?_eq_some_iff`: no other bytes do.
-/

namespace TurnRendezvous

abbrev Bytes := List UInt8

namespace Text

def utf8 (s : String) : Bytes := s.toByteArray.data.toList

/-- The text that `b` encodes, if `b` is UTF-8. -/
def ofUtf8? (b : Bytes) : Option String := String.fromUTF8? ⟨b.toArray⟩

theorem ofUtf8?_eq_some_iff {b : Bytes} {s : String} :
    ofUtf8? b = some s ↔ b = utf8 s := by
  unfold ofUtf8? utf8 String.fromUTF8?
  constructor
  · intro h
    split at h
    · cases h; rfl
    · cases h
  · rintro rfl
    have hv : (⟨s.toByteArray.data.toList.toArray⟩ : ByteArray).IsValidUTF8 := s.isValidUTF8
    rw [dif_pos hv]
    rfl

@[simp] theorem ofUtf8?_utf8 (s : String) : ofUtf8? (utf8 s) = some s :=
  ofUtf8?_eq_some_iff.2 rfl

theorem utf8_injective {s t : String} (h : utf8 s = utf8 t) : s = t :=
  Option.some.inj ((ofUtf8?_utf8 s).symm.trans (h ▸ ofUtf8?_utf8 t))

@[simp] theorem utf8_eq_nil_iff {s : String} : utf8 s = [] ↔ s = "" :=
  ⟨fun h => utf8_injective (h.trans (by decide)), fun h => h ▸ by decide⟩

end Text

end TurnRendezvous
