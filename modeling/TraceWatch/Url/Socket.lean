import TraceWatch.Url.Host

/-!
# Addresses of sockets

The address of a socket is that of a host, without names, and a port after a colon. An address of
eight pieces stands in square brackets, perhaps with the number of a network interface after `%`.
-/

namespace TraceWatch.Host

/-- Whether a text is the address of a host: four numbers, or eight pieces. -/
def isAddress (text : List Char) : Bool :=
  (embedded? (Url.Domain.labels text)).isSome || (ipv6? text).isSome

/-- Whether a text is a number below a bound. -/
def isNumberBelow (bound : Nat) (text : List Char) : Bool :=
  !text.isEmpty && match digitsTo? 10 text with
    | some value => value < bound
    | none => false

/-- Whether a text is an address of eight pieces, perhaps with the number of an interface. -/
def isScopedAddress (text : List Char) : Bool :=
  match Text.atFirst? '%' text with
  | none => (ipv6? text).isSome
  | some (address, scope) => (ipv6? address).isSome && isNumberBelow (Nat.pow 2 32) scope

/-- Whether a text is the address of a socket. -/
def isSocketAddress (text : String) : Bool :=
  match Text.atLast? ':' text.toList with
  | none => false
  | some (address, port) =>
    isNumberBelow (Nat.pow 2 16) port &&
      (match address with
      | '[' :: rest => rest.getLast? = some ']' && isScopedAddress rest.dropLast
      | address => (embedded? (Url.Domain.labels address)).isSome)

end TraceWatch.Host
