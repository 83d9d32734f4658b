/-!
# Bytes

Byte strings, the UTF-8 bytes of a text, and the text of a byte string where it
is UTF-8.  `Bytes.text?_ofText` says that a text comes back from its bytes.
-/

namespace JobQueue

/-- A string of bytes. -/
abbrev Bytes := List UInt8

namespace Bytes

/-- The UTF-8 bytes of a text. -/
def ofText (s : String) : Bytes := s.toByteArray.data.toList

/-- The text of which these are the UTF-8 bytes, if there is one. -/
def text? (b : Bytes) : Option String := String.fromUTF8? ⟨b.toArray⟩

/-- The length of the longest start of a byte string that is UTF-8. -/
def textLength (b : Bytes) : Nat :=
  ((List.range (b.length + 1)).reverse.find? fun n => (text? (b.take n)).isSome).getD 0

theorem text?_ofText (s : String) : text? (ofText s) = some s := by
  have h : (⟨s.toByteArray.data.toList.toArray⟩ : ByteArray) = s.toByteArray := by
    rw [Array.toArray_toList]
  unfold text? ofText
  rw [h, String.fromUTF8?, dif_pos s.isValidUTF8]
  rfl

theorem ofText_of_text? {b : Bytes} {s : String} (h : text? b = some s) : ofText s = b := by
  unfold text? String.fromUTF8? at h
  split at h
  · next hv =>
    cases h
    rfl
  · cases h

example : text? [0xC3, 0xA9] = some "é" := by decide +kernel
example : textLength [0x61, 0xE2, 0x82, 0x22] = 1 := by decide +kernel

end Bytes

end JobQueue
