/-
This file reads the host of a URL: a domain name or a numeric address.

A name whose last label is a number has to be an IPv4 address, and a host in
square brackets an IPv6 address.
-/
import WorkspaceSync.Url.Address
import WorkspaceSync.Url.Domain

namespace WorkspaceSync

/-- Why a URL cannot be read. -/
inductive UrlError where
  | relativeWithoutBase
  | emptyHost
  | invalidPort
  | invalidIpv4
  | invalidIpv6
  | invalidDomain
  | invalidDomainCharacter
  deriving DecidableEq, Repr

/-- The text of an error. -/
def UrlError.message : UrlError → String
  | .relativeWithoutBase => "relative URL without a base"
  | .emptyHost => "empty host"
  | .invalidPort => "invalid port number"
  | .invalidIpv4 => "invalid IPv4 address"
  | .invalidIpv6 => "invalid IPv6 address"
  | .invalidDomain => "invalid international domain name"
  | .invalidDomainCharacter => "invalid domain character"

/-- The host of a URL. -/
inductive Host where
  | domain (name : List Char)
  /-- An address of four bytes, as one number. -/
  | ipv4 (address : Nat)
  /-- An address of eight groups of two bytes. -/
  | ipv6 (groups : List Nat)
  deriving DecidableEq, Repr

namespace Host

/-- The address between square brackets. -/
def bracketed? (text : List Char) : Option (Except UrlError Host) :=
  match text with
  | '[' :: inner =>
    if inner.getLast? = some ']' then
      match Address.ipv6? inner.dropLast with
      | some groups => some (.ok (.ipv6 groups))
      | none => some (.error .invalidIpv6)
    else some (.error .invalidIpv6)
  | _ => none

/-- Reads the host of a URL whose scheme knows domain names. -/
def read (text : List Char) : Except UrlError Host :=
  match bracketed? text with
  | some result => result
  | none =>
    match Domain.ascii? (Text.decodeLossy (Percent.decode text)) with
    | none => .error .invalidDomain
    | some [] => .error .emptyHost
    | some name =>
      if Address.endsInNumber name then
        match Address.ipv4? name with
        | some address => .ok (.ipv4 address)
        | none => .error .invalidIpv4
      else .ok (.domain name)

/-- Reads the host of any other URL. -/
def readOpaque (text : List Char) : Except UrlError Host :=
  match bracketed? text with
  | some result => result
  | none =>
    if text.any fun character =>
        [Char.ofNat 0, ' ', '#', '/', ':', '<', '>', '?', '@', '[', '\\', ']', '^', '|'].contains
          character then
      .error .invalidDomainCharacter
    else .ok (.domain (Percent.encode [] text))

/-- The text of a host. -/
def text : Host → List Char
  | .domain name => name
  | .ipv4 address => Address.ipv4Text address
  | .ipv6 groups => ['['] ++ Address.ipv6Text groups ++ [']']

end Host

end WorkspaceSync
