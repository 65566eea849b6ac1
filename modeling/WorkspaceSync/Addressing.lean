/-
This file says what the program asks of a library for addresses.

The program never takes an address apart. It has texts read as addresses, asks
an address for its scheme, its normal form and the local path it stands for,
and has local paths written as addresses. How the library does that is left
open: it is a parameter of everything that deals with addresses, and what the
proofs rely on is what the library documents.
-/
import WorkspaceSync.Path

namespace WorkspaceSync

/-- A library for addresses. -/
structure Addressing where
  /-- What a text is read as. -/
  Address : Type
  /-- Reads a text; the error says what is wrong with it. -/
  read : String → Except String Address
  scheme : Address → String
  /-- The normal form of an address. -/
  text : Address → String
  /-- The local path that an address stands for, if it stands for one. -/
  toPath? : Address → Option Path
  /-- The address of a local path, if it has one. -/
  ofPath? : Path → Option String

namespace Addressing

/-- What the library documents: the local path of an address is absolute, and every absolute path
has an address. -/
structure Documented (addressing : Addressing) : Prop where
  isAbsolute_of_toPath? : ∀ address path,
    addressing.toPath? address = some path → path.isAbsolute = true
  exists_ofPath? : ∀ path : Path,
    path.isAbsolute = true → ∃ uri, addressing.ofPath? path = some uri

end Addressing

end WorkspaceSync
