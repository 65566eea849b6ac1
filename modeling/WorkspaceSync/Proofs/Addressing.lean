/-
This file shows that URLs are addresses as the program asks for them.

The path of a URL that stands for a local path begins with a slash. Reading its
percent signs leaves the slash alone, since a percent sign is needed to change a
byte, and a text whose first byte is a slash begins with a slash.
-/
import WorkspaceSync.Proofs.Text
import WorkspaceSync.Url

namespace WorkspaceSync

/-- A path that begins with a slash still does once its percent signs are read. -/
theorem Percent.decode_slash (rest : List Char) :
    ∃ later, Percent.decode ('/' :: rest) = 0x2F :: later := by
  have bytes : Percent.bytesOf ('/' :: rest) = 0x2F :: rest.flatMap String.utf8EncodeChar := by
    rw [Percent.bytesOf, Text.data_toUTF8, String.toList_ofList, List.flatMap_cons]
    rfl
  refine ⟨Percent.decodeBytes (rest.flatMap String.utf8EncodeChar), ?_⟩
  rw [Percent.decode, bytes, Percent.decodeBytes]
  rintro high low later ⟨⟩

/-- Bytes that are read as a text are its bytes. -/
theorem Text.toUTF8_of_fromUTF8? {bytes : ByteArray} {text : String}
    (read : String.fromUTF8? bytes = some text) : text.toUTF8 = bytes := by
  unfold String.fromUTF8? at read
  split at read
  · rw [← Option.some.inj read]
    rfl
  · exact nomatch read

namespace Url

/-- A path that begins with a slash is absolute once it is decoded. -/
theorem isAbsolute_of_decoded? {rest : List Char} {path : Path}
    (decoded : toPath?.decoded? ('/' :: rest) = some path) : path.isAbsolute = true := by
  obtain ⟨later, slash⟩ := Percent.decode_slash rest
  have begins (bytes : List UInt8) (text : String)
      (read : String.fromUTF8? ⟨(0x2F :: bytes).toArray⟩ = some text) :
      (Path.mk text).isAbsolute = true := by
    have first : text.toUTF8.data.toList = 0x2F :: bytes := by
      rw [Text.toUTF8_of_fromUTF8? read]
    rw [Path.isAbsolute, Text.head?_of_data_toUTF8 first]
    rfl
  rw [toPath?.decoded?, slash] at decoded
  obtain ⟨text, read, rfl⟩ := Option.map_eq_some_iff.mp decoded
  split at read
  · exact begins _ text read
  · exact begins _ text read

/-- The path of a URL is absolute. -/
theorem isAbsolute_of_toPath? {url : Url} {path : Path} (found : url.toPath? = some path) :
    path.isAbsolute = true := by
  unfold toPath? at found
  split at found
  · next rest shape _ =>
    rw [shape] at found
    exact isAbsolute_of_decoded? found
  · next rest name shape _ =>
    split at found
    · rw [shape] at found
      exact isAbsolute_of_decoded? found
    · exact nomatch found
  · exact nomatch found

theorem read_addressing {uri : String} {url : Url} (read : Url.read uri = .ok url) :
    addressing.read uri = .ok url := by
  simp only [addressing, read]

/-- URLs keep what is asked of addresses. -/
theorem documented_addressing : addressing.Documented where
  isAbsolute_of_toPath? := fun _ _ found => isAbsolute_of_toPath? found
  exists_ofPath? := by
    intro path absolute
    show ∃ uri, ofPath? path = some uri
    rw [ofPath?, if_pos absolute]
    exact ⟨_, rfl⟩

end Url

end WorkspaceSync
