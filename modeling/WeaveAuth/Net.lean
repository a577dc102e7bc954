import WeaveAuth.Text

/-!
# Addresses

`IpAddr` and `SocketAddr` of `std::net` and their parser, with the grammar of `core::net::parser`. A
reader takes the characters it wants off the front and gives back the rest, or takes nothing.

An address is its number: a `BitVec`. A non-ASCII character is neither a digit nor a separator, so
it makes no difference that the source reads bytes.

## Implementation notes

The grammar is the parser's and not an RFC's: an octet has no leading zero, an IPv4 address may end
an IPv6 one, `::` stands for at least one group, and a port has as many digits as it likes as long
as it fits. A reader that fails takes nothing, which is `read_atomically`.
-/

namespace WeaveAuth

namespace Net

/-- `IpAddr`. -/
inductive IpAddr where
  | v4 (addr : BitVec 32)
  | v6 (addr : BitVec 128)
  deriving DecidableEq

/-- `SocketAddr`, less the flow information, which is always zero here. -/
inductive SocketAddr where
  | v4 (ip : BitVec 32) (port : ℕ)
  | v6 (ip : BitVec 128) (port scopeId : ℕ)
  deriving DecidableEq

/-- `SocketAddr::ip`. -/
def SocketAddr.ip : SocketAddr → IpAddr
  | .v4 ip _ => .v4 ip
  | .v6 ip _ _ => .v6 ip

/-- `IpAddr::to_canonical`: the IPv4 address that an IPv4-mapped one stands for. -/
def IpAddr.toCanonical : IpAddr → IpAddr
  | .v4 addr => .v4 addr
  | .v6 addr => if addr >>> 32 = 0xFFFF#128 then .v4 (addr.setWidth 32) else .v6 addr

theorem IpAddr.toCanonical_toCanonical (ip : IpAddr) :
    ip.toCanonical.toCanonical = ip.toCanonical := by
  cases ip with
  | v4 addr => rfl
  | v6 addr =>
    simp only [toCanonical]
    split_ifs with h
    · rfl
    · simp [h]

/-! ### The parser -/

/-- `char::to_digit`. -/
def toDigit (radix : ℕ) (c : Char) : Option ℕ :=
  let digit :=
    if '0' ≤ c ∧ c ≤ '9' then c.toNat - 48
    else if 'a' ≤ c ∧ c ≤ 'z' then c.toNat - 87
    else if 'A' ≤ c ∧ c ≤ 'Z' then c.toNat - 55
    else radix
  if digit < radix then some digit else none

/-- `read_given_char`. -/
def readGivenChar (c : Char) : List Char → Option (List Char)
  | [] => none
  | c' :: rest => if c' = c then some rest else none

/-- `read_separator`: none before the first. -/
def readSeparator {α : Type} (separator : Char) (first : Bool)
    (inner : List Char → Option (α × List Char)) (s : List Char) : Option (α × List Char) :=
  if first then inner s else (readGivenChar separator s).bind inner

/-- `read_number`, of a type with this maximum. -/
def readNumber (radix : ℕ) (maxDigits : Option ℕ) (allowZeroPrefix : Bool) (maximum : ℕ)
    (s : List Char) : Option (ℕ × List Char) :=
  let digits := s.takeWhile fun c => (toDigit radix c).isSome
  let number := digits.foldl (fun n c => n * radix + (toDigit radix c).getD 0) 0
  if digits = [] ∨ maxDigits.any (· < digits.length) then none
  else if !allowZeroPrefix && s.head? = some '0' && 1 < digits.length then none
  else if maximum < number then none
  else some (number, s.drop digits.length)

/-- `read_ipv4_addr`. An octet has no leading zero, which would make it octal. -/
def readIpv4Addr (s : List Char) : Option (BitVec 32 × List Char) := do
  let octet := readNumber 10 (some 3) false 255
  let (a, s) ← readSeparator '.' true octet s
  let (b, s) ← readSeparator '.' false octet s
  let (c, s) ← readSeparator '.' false octet s
  let (d, s) ← readSeparator '.' false octet s
  return (BitVec.ofNat 32 (((a * 256 + b) * 256 + c) * 256 + d), s)

/-- `read_groups`, with room for so many more groups: the groups, and whether an IPv4 address ends
them, which takes the room of two. -/
def readGroups : ℕ → Bool → List Char → (List ℕ × Bool) × List Char
  | 0, _, s => (([], false), s)
  | room + 1, first, s =>
    match if room = 0 then none else readSeparator ':' first readIpv4Addr s with
    | some (addr, rest) => (([addr.toNat / 65536, addr.toNat % 65536], true), rest)
    | none =>
      match readSeparator ':' first (readNumber 16 (some 4) true 65535) s with
      | none => (([], false), s)
      | some (group, rest) =>
        let ((groups, ipv4), rest) := readGroups room false rest
        ((group :: groups, ipv4), rest)

def ofGroups (groups : List ℕ) : BitVec 128 :=
  BitVec.ofNat 128 (groups.foldl (fun n group => n * 65536 + group) 0)

/-- `read_ipv6_addr`. The `::` stands for one zero group at least. -/
def readIpv6Addr (s : List Char) : Option (BitVec 128 × List Char) :=
  let ((head, ipv4), rest) := readGroups 8 true s
  if head.length = 8 then some (ofGroups head, rest)
  else if ipv4 then none
  else
    (readGivenChar ':' rest).bind fun rest => (readGivenChar ':' rest).map fun rest =>
      let ((tail, _), rest) := readGroups (7 - head.length) true rest
      (ofGroups (head ++ List.replicate (8 - head.length - tail.length) 0 ++ tail), rest)

/-- `read_ip_addr`. -/
def readIpAddr (s : List Char) : Option (IpAddr × List Char) :=
  match readIpv4Addr s with
  | some (addr, rest) => some (.v4 addr, rest)
  | none => (readIpv6Addr s).map fun (addr, rest) => (.v6 addr, rest)

/-- `read_port`. -/
def readPort (s : List Char) : Option (ℕ × List Char) :=
  (readGivenChar ':' s).bind (readNumber 10 none true 65535)

/-- `read_scope_id`. -/
def readScopeId (s : List Char) : Option (ℕ × List Char) :=
  (readGivenChar '%' s).bind (readNumber 10 none true 4294967295)

/-- `read_socket_addr_v4`. -/
def readSocketAddrV4 (s : List Char) : Option (SocketAddr × List Char) := do
  let (ip, s) ← readIpv4Addr s
  let (port, s) ← readPort s
  return (.v4 ip port, s)

/-- `read_socket_addr_v6`. -/
def readSocketAddrV6 (s : List Char) : Option (SocketAddr × List Char) := do
  let s ← readGivenChar '[' s
  let (ip, s) ← readIpv6Addr s
  let (scopeId, s) := (readScopeId s).getD (0, s)
  let s ← readGivenChar ']' s
  let (port, s) ← readPort s
  return (.v6 ip port scopeId, s)

/-- `read_socket_addr`. -/
def readSocketAddr (s : List Char) : Option (SocketAddr × List Char) :=
  (readSocketAddrV4 s).or (readSocketAddrV6 s)

/-- `parse_with`: a reader that has to take everything. -/
def parseWith {α : Type} (inner : List Char → Option (α × List Char)) (s : List Char) : Option α :=
  match inner s with
  | some (a, []) => some a
  | _ => none

/-- `IpAddr::from_str`. -/
def parseIpAddr : List Char → Option IpAddr := parseWith readIpAddr

/-- `SocketAddr::from_str`. -/
def parseSocketAddr : List Char → Option SocketAddr := parseWith readSocketAddr

example : parseIpAddr "::ffff:198.51.100.1".toList = some (.v6 0xFFFFC6336401#128) ∧
    parseIpAddr "1.2.3.04".toList = none ∧ parseIpAddr "1:2::3::4".toList = none ∧
    parseSocketAddr "[2001:db8::]:443".toList =
      some (.v6 0x20010db8000000000000000000000000#128 443 0) := by
  decide +kernel

end Net

end WeaveAuth
