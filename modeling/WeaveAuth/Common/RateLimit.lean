import WeaveAuth.Http
import WeaveAuth.Net

/-!
# The client's address

`common/src/rate_limit.rs`: the key of the rate limits, and the address that login reports to
Kratos. It is the peer's, or what trusted proxies report in `X-Forwarded-For`. A network is given by
what it contains.

## Main results

* `clientIpOf_not_spoofable`: whatever stands before the entry the walk stops at changes nothing

## What is compared

What the walk is about is said by `readHop`, in terms of `parseIpAddr` and `parseSocketAddr`, the
parser of `std::net`; that the code's own reading of an entry agrees with it is `readHop_eq`.

## What is left out

The token buckets themselves: whether a request has one left. A network contains an address or does
not; how one is written in the configuration is `ipnet`'s matter.
-/

namespace WeaveAuth

namespace Common

open Net

def xForwardedFor : HeaderName := .custom "x-forwarded-for"

/-- Some load balancers append the client's port: `ip:port` or `[v6]:port`. -/
def parseHop (hop : List Char) : Option IpAddr :=
  (parseIpAddr hop).or ((parseSocketAddr hop).map SocketAddr.ip)


/-- A host usually holds a whole IPv6 /64. -/
def perNetwork : IpAddr → IpAddr
  | .v6 addr => .v6 (addr &&& ~~~(BitVec.allOnes 128 >>> 64))
  | .v4 addr => .v4 addr

theorem getLsbD_networkMask (i : ℕ) :
    (~~~(BitVec.allOnes 128 >>> 64)).getLsbD i = (decide (64 ≤ i) && decide (i < 128)) := by
  simp only [BitVec.getLsbD_not, BitVec.getLsbD_ushiftRight, BitVec.getLsbD_allOnes]
  grind

/-- Two IPv6 clients share a key when they are in one /64. -/
theorem perNetwork_v6 (a b : BitVec 128) :
    perNetwork (.v6 a) = perNetwork (.v6 b) ↔ a >>> 64 = b >>> 64 := by
  simp only [perNetwork, IpAddr.v6.injEq]
  constructor
  · intro h
    apply BitVec.eq_of_getLsbD_eq
    intro i hi
    have hbit := congrArg (fun x => x.getLsbD (64 + i)) h
    simp only [BitVec.getLsbD_and, getLsbD_networkMask] at hbit
    simp only [BitVec.getLsbD_ushiftRight]
    grind
  · intro h
    apply BitVec.eq_of_getLsbD_eq
    intro i hi
    have hbit := congrArg (fun x => x.getLsbD (i - 64)) h
    simp only [BitVec.getLsbD_ushiftRight] at hbit
    simp only [BitVec.getLsbD_and, getLsbD_networkMask]
    grind

section Walk

variable {IpNet : Type} (contains : IpNet → IpAddr → Bool) (trustedProxies : List IpNet)

def isTrusted (ip : IpAddr) : Bool := trustedProxies.any fun net => contains net ip

/-- The loop of `client_ip`, which has reached `client`; the entries come from the right. -/
def walk (client : IpAddr) : List (List ℕ) → IpAddr
  | [] => client
  | hop :: hops =>
    if !isTrusted contains trustedProxies client then client
    else
      match parseHop (trim (Utf8.lossy hop)) with
      | some ip => walk ip.toCanonical hops
      | none => client

def clientIp (peer : IpAddr) (forwardedFor : List (List ℕ)) : IpAddr :=
  walk contains trustedProxies peer.toCanonical forwardedFor.reverse

/-- The entries, over all lines. -/
def forwardedFor (headers : HeaderMap) : List (List ℕ) :=
  (headers.getAll xForwardedFor).flatMap fun line => line.bytes.splitOn 0x2C

def clientIpOf (peer : IpAddr) (headers : HeaderMap) : IpAddr :=
  clientIp contains trustedProxies peer (forwardedFor headers)

/-- `request_client_ip`: none without the peer's `ConnectInfo`. -/
def requestClientIp (peer : Option IpAddr) (headers : HeaderMap) : Option IpAddr :=
  peer.map fun peer => clientIpOf contains trustedProxies peer headers

/-- `ClientIpKeyExtractor::extract`: the key, or `UnableToExtractKey`. -/
def extract (peer : Option IpAddr) (headers : HeaderMap) : Option IpAddr :=
  (requestClientIp contains trustedProxies peer headers).map perNetwork

/-! ### Lines and entries -/

/-- The header's lines carry these entries: some to each line, with commas between them. -/
def Carries (headers : HeaderMap) (entries : List (List ℕ)) : Prop :=
  ∃ lines : List (List (List ℕ)), lines.flatten = entries ∧ (∀ line ∈ lines, line ≠ []) ∧
    (∀ entry ∈ entries, 0x2C ∉ entry) ∧
    (headers.getAll xForwardedFor).map HeaderValue.bytes = lines.map [0x2C].intercalate

theorem forwardedFor_of_carries {headers : HeaderMap} {entries : List (List ℕ)}
    (h : Carries headers entries) : forwardedFor headers = entries := by
  obtain ⟨lines, rfl, hne, hcomma, hlines⟩ := h
  have hsplit : ∀ line ∈ lines, ([0x2C].intercalate line).splitOn 0x2C = line := by
    intro line hline
    refine List.splitOn_intercalate _ ?_ (hne line hline)
    intro entry hentry
    exact hcomma entry (List.mem_flatten_of_mem hline hentry)
  calc forwardedFor headers
      = ((headers.getAll xForwardedFor).map HeaderValue.bytes).flatMap (List.splitOn 0x2C) := by
        rw [forwardedFor, List.flatMap_map]
    _ = lines.flatMap fun line => ([0x2C].intercalate line).splitOn 0x2C := by
        rw [hlines, List.flatMap_map]
    _ = lines.flatMap id := by
        rw [List.flatMap_congr hsplit]
        rfl
    _ = lines.flatten := List.flatMap_id

/-! ### Where the walk stops -/

/-- The address that an entry is, with a port or without. -/
def readHop (hop : List ℕ) : Option IpAddr :=
  let entry := trim (Utf8.lossy hop)
  ((parseIpAddr entry).map IpAddr.toCanonical).or
    ((parseSocketAddr entry).map fun addr => addr.ip.toCanonical)

theorem readHop_eq (hop : List ℕ) :
    readHop hop = (parseHop (trim (Utf8.lossy hop))).map IpAddr.toCanonical := by
  rw [readHop, parseHop, Option.map_or, Option.map_map]
  rfl

/-- The walk stops at an entry: it is not one of a trusted address. -/
def StopsAt (entry : List ℕ) : Prop :=
  ∀ ip, readHop entry = some ip → isTrusted contains trustedProxies ip = false

/-- The walk stops at the peer, or within these entries. -/
def StopsIn (peer : IpAddr) (entries : List (List ℕ)) : Prop :=
  isTrusted contains trustedProxies peer.toCanonical = false ∨
    ∃ entry ∈ entries, StopsAt contains trustedProxies entry

/-- What the walk finds: an untrusted peer; or behind the trusted `hops` an untrusted address; or,
where the entry behind them is none, the last of them, the peer being the first. -/
inductive Found (peer : IpAddr) (entries : List (List ℕ)) : IpAddr → Prop where
  | peer (huntrusted : isTrusted contains trustedProxies peer.toCanonical = false) :
      Found peer entries peer.toCanonical
  | untrusted (before after : List (List ℕ)) (entry : List ℕ) (hops : List IpAddr) (ip : IpAddr)
      (hentries : entries = before ++ entry :: after) (hhops : after.map readHop = hops.map some)
      (htrusted : ∀ hop ∈ hops ++ [peer.toCanonical], isTrusted contains trustedProxies hop = true)
      (hip : readHop entry = some ip) (huntrusted : isTrusted contains trustedProxies ip = false) :
      Found peer entries ip
  | unparsable (before after : List (List ℕ)) (entry : List ℕ) (hops : List IpAddr) (ip : IpAddr)
      (hentries : entries = before ++ entry :: after) (hhops : after.map readHop = hops.map some)
      (htrusted : ∀ hop ∈ hops ++ [peer.toCanonical], isTrusted contains trustedProxies hop = true)
      (hentry : readHop entry = none) (hip : (hops ++ [peer.toCanonical]).head? = some ip) :
      Found peer entries ip

/-! ### The walk -/

variable {contains trustedProxies}

theorem walk_of_untrusted {client : IpAddr} (h : isTrusted contains trustedProxies client = false) :
    ∀ hops, walk contains trustedProxies client hops = client
  | [] => rfl
  | _ :: _ => by rw [walk, h]; rfl

theorem walk_cons_of_some {client ip : IpAddr} {hop : List ℕ}
    (h : isTrusted contains trustedProxies client = true) (hip : readHop hop = some ip)
    (hops : List (List ℕ)) : walk contains trustedProxies client (hop :: hops) =
      walk contains trustedProxies ip hops := by
  rw [readHop_eq] at hip
  obtain ⟨raw, hraw, rfl⟩ := Option.map_eq_some_iff.mp hip
  rw [walk, h, hraw]
  rfl

theorem walk_cons_of_none {client : IpAddr} {hop : List ℕ} (hhop : readHop hop = none)
    (hops : List (List ℕ)) : walk contains trustedProxies client (hop :: hops) = client := by
  rw [readHop_eq] at hhop
  rw [walk, Option.map_eq_none_iff.mp hhop]
  split <;> rfl

/-- Beyond a trusted entry, the walk stops further on. -/
theorem stops_of_cons {client ip : IpAddr} {hop : List ℕ} {hops : List (List ℕ)}
    (htrusted : isTrusted contains trustedProxies client = true) (hip : readHop hop = some ip)
    (h : isTrusted contains trustedProxies client = false ∨
      ∃ entry ∈ hop :: hops, StopsAt contains trustedProxies entry) :
    isTrusted contains trustedProxies ip = false ∨
      ∃ entry ∈ hops, StopsAt contains trustedProxies entry := by
  obtain h | ⟨entry, hmem, hstops⟩ := h
  · rw [htrusted] at h
    cases h
  · obtain rfl | hmem := List.mem_cons.mp hmem
    · exact Or.inl (hstops ip hip)
    · exact Or.inr ⟨entry, hmem, hstops⟩

/-- The entries beyond the one the walk stops at are not looked at. -/
theorem walk_append {hops : List (List ℕ)} (rest : List (List ℕ)) : ∀ {client : IpAddr},
    (isTrusted contains trustedProxies client = false ∨
      ∃ entry ∈ hops, StopsAt contains trustedProxies entry) →
    walk contains trustedProxies client (hops ++ rest) =
      walk contains trustedProxies client hops := by
  induction hops with
  | nil =>
    intro client h
    obtain h | ⟨entry, hmem, -⟩ := h
    · rw [walk_of_untrusted h, walk_of_untrusted h]
    · cases hmem
  | cons hop hops ih =>
    intro client h
    cases htrusted : isTrusted contains trustedProxies client with
    | false => rw [walk_of_untrusted htrusted, walk_of_untrusted htrusted]
    | true =>
      rw [List.cons_append]
      cases hip : readHop hop with
      | none => rw [walk_cons_of_none hip, walk_cons_of_none hip]
      | some ip =>
        rw [walk_cons_of_some htrusted hip, walk_cons_of_some htrusted hip]
        exact ih (stops_of_cons htrusted hip h)

/-- What a walk finds that stops within the entries, which come from the right. -/
theorem walk_spec {entries : List (List ℕ)} : ∀ {client : IpAddr},
    (isTrusted contains trustedProxies client = false ∨
      ∃ entry ∈ entries, StopsAt contains trustedProxies entry) →
    isTrusted contains trustedProxies client = false ∨
      ∃ (near far : List (List ℕ)) (entry : List ℕ) (hops : List IpAddr),
        entries = near ++ entry :: far ∧ near.map readHop = hops.map some ∧
        (∀ hop ∈ client :: hops, isTrusted contains trustedProxies hop = true) ∧
        (readHop entry = some (walk contains trustedProxies client entries) ∧
            isTrusted contains trustedProxies
              (walk contains trustedProxies client entries) = false ∨
          readHop entry = none ∧
            (client :: hops).getLast? = some (walk contains trustedProxies client entries)) := by
  induction entries with
  | nil =>
    intro client h
    obtain h | ⟨entry, hmem, -⟩ := h
    · exact Or.inl h
    · cases hmem
  | cons hop entries ih =>
    intro client h
    cases htrusted : isTrusted contains trustedProxies client with
    | false => exact Or.inl rfl
    | true =>
      refine Or.inr ?_
      cases hip : readHop hop with
      | none =>
        rw [walk_cons_of_none hip]
        exact ⟨[], entries, hop, [], rfl, rfl, by simpa using htrusted, Or.inr ⟨hip, rfl⟩⟩
      | some ip =>
        rw [walk_cons_of_some htrusted hip]
        obtain huntrusted | ⟨near, far, entry, hops, rfl, hhops, hall, hend⟩ :=
          ih (stops_of_cons htrusted hip h)
        · rw [walk_of_untrusted huntrusted]
          exact ⟨[], entries, hop, [], rfl, rfl, by simpa using htrusted, Or.inl ⟨hip, huntrusted⟩⟩
        · refine ⟨hop :: near, far, entry, ip :: hops, rfl, ?_, ?_, ?_⟩
          · rw [List.map_cons, List.map_cons, hip, hhops]
          · intro hop' hmem
            obtain rfl | hmem := List.mem_cons.mp hmem
            · exact htrusted
            · exact hall hop' hmem
          · rwa [List.getLast?_cons_cons]

theorem StopsIn.reverse {peer : IpAddr} {entries : List (List ℕ)}
    (h : StopsIn contains trustedProxies peer entries) :
    StopsIn contains trustedProxies peer entries.reverse := by
  rw [StopsIn] at h ⊢
  simpa only [List.mem_reverse] using h

/-- **What `client_ip` finds.** -/
theorem found_clientIp {peer : IpAddr} {entries : List (List ℕ)}
    (h : StopsIn contains trustedProxies peer entries) :
    Found contains trustedProxies peer entries (clientIp contains trustedProxies peer entries) := by
  obtain huntrusted | ⟨near, far, entry, hops, hentries, hhops, hall, hend⟩ := walk_spec h.reverse
  · rw [clientIp, walk_of_untrusted huntrusted]
    exact .peer huntrusted
  · have hsplit : entries = far.reverse ++ entry :: near.reverse := by
      rw [← List.reverse_reverse entries, hentries]
      simp
    have hback : near.reverse.map readHop = hops.reverse.map some := by
      rw [List.map_reverse, hhops, List.map_reverse]
    have htrusted : ∀ hop ∈ hops.reverse ++ [peer.toCanonical],
        isTrusted contains trustedProxies hop = true := by
      intro hop hmem
      refine hall hop ?_
      rwa [← List.reverse_cons, List.mem_reverse] at hmem
    obtain ⟨hip, huntrusted⟩ | ⟨hentry, hlast⟩ := hend
    · exact .untrusted _ _ entry _ _ hsplit hback htrusted hip huntrusted
    · refine .unparsable _ _ entry _ _ hsplit hback htrusted hentry ?_
      rwa [← List.reverse_cons, List.head?_reverse]

/-- Only the canonical form of an address matters. -/
theorem walk_congr {hops hops' : List (List ℕ)} : ∀ {client : IpAddr},
    hops.map readHop = hops'.map readHop →
    walk contains trustedProxies client hops = walk contains trustedProxies client hops' := by
  induction hops generalizing hops' with
  | nil =>
    intro client h
    rw [List.map_eq_nil_iff.mp h.symm]
  | cons hop hops ih =>
    intro client h
    obtain ⟨hop', rest', rfl, hhop, hrest⟩ := List.map_eq_cons_iff.mp h.symm
    cases htrusted : isTrusted contains trustedProxies client with
    | false => rw [walk_of_untrusted htrusted, walk_of_untrusted htrusted]
    | true =>
      cases hip : readHop hop with
      | none => rw [walk_cons_of_none hip, walk_cons_of_none (hhop.trans hip)]
      | some ip =>
        rw [walk_cons_of_some htrusted hip, walk_cons_of_some htrusted (hhop.trans hip)]
        exact ih hrest.symm

theorem clientIp_append {peer : IpAddr} {suffix : List (List ℕ)}
    (h : StopsIn contains trustedProxies peer suffix) (before : List (List ℕ)) :
    clientIp contains trustedProxies peer (before ++ suffix) =
      clientIp contains trustedProxies peer suffix := by
  rw [clientIp, clientIp, List.reverse_append]
  exact walk_append _ h.reverse

theorem readHop_canonical {entry : List ℕ} {ip : IpAddr} (h : readHop entry = some ip) :
    ip.toCanonical = ip := by
  rw [readHop_eq] at h
  obtain ⟨raw, -, rfl⟩ := Option.map_eq_some_iff.mp h
  exact raw.toCanonical_toCanonical

theorem Found.canonical {peer ip : IpAddr} {entries : List (List ℕ)}
    (h : Found contains trustedProxies peer entries ip) : ip.toCanonical = ip := by
  cases h with
  | peer => exact peer.toCanonical_toCanonical
  | untrusted before after entry hops ip hentries hhops htrusted hip => exact readHop_canonical hip
  | unparsable before after entry hops ip hentries hhops htrusted hentry hip =>
    cases hops with
    | nil =>
      obtain rfl : peer.toCanonical = ip := by simpa using hip
      exact peer.toCanonical_toCanonical
    | cons hop hops =>
      obtain rfl : hop = ip := by simpa using hip
      obtain ⟨entry', rest, -, hentry', -⟩ := List.map_eq_cons_iff.mp hhops
      exact readHop_canonical hentry'

/-- **`X-Forwarded-For` cannot be spoofed.** Let the walk stop at the peer or within the last
entries. Then two requests that agree on these and on the peer, be an IPv4 address there written as
such or mapped, have the same client, whatever other entries stand before and however the lines are
cut. It is the first untrusted address or, where an entry is none, the trusted one before it. -/
theorem clientIpOf_not_spoofable {peer peer' : IpAddr}
    {before before' suffix suffix' : List (List ℕ)} {headers headers' : HeaderMap}
    (hstops : StopsIn contains trustedProxies peer suffix)
    (hpeer : peer'.toCanonical = peer.toCanonical)
    (hsuffix : suffix'.map readHop = suffix.map readHop)
    (hheaders : Carries headers (before ++ suffix))
    (hheaders' : Carries headers' (before' ++ suffix')) :
    clientIpOf contains trustedProxies peer headers =
        clientIpOf contains trustedProxies peer' headers' ∧
      Found contains trustedProxies peer suffix (clientIpOf contains trustedProxies peer headers) ∧
      (clientIpOf contains trustedProxies peer headers).toCanonical =
        clientIpOf contains trustedProxies peer headers := by
  have hfound := found_clientIp hstops
  have hstops' : StopsIn contains trustedProxies peer' suffix' := by
    obtain huntrusted | ⟨entry, hmem, hentry⟩ := hstops
    · exact Or.inl (by rw [hpeer, huntrusted])
    · have hread : readHop entry ∈ suffix'.map readHop := by
        rw [hsuffix]
        exact List.mem_map_of_mem hmem
      obtain ⟨entry', hmem', heq⟩ := List.mem_map.mp hread
      exact Or.inr ⟨entry', hmem', fun ip hip => hentry ip (heq ▸ hip)⟩
  have hsame : clientIp contains trustedProxies peer suffix =
      clientIp contains trustedProxies peer' suffix' := by
    rw [clientIp, clientIp, hpeer]
    exact walk_congr (by rw [List.map_reverse, List.map_reverse, hsuffix])
  rw [clientIpOf, clientIpOf, forwardedFor_of_carries hheaders, forwardedFor_of_carries hheaders',
    clientIp_append hstops, clientIp_append hstops']
  exact ⟨hsame, hfound, hfound.canonical⟩

end Walk

/-- The network `10.0.0.0/8`. -/
def privateNetwork : Unit → IpAddr → Bool
  | (), .v4 addr => addr >>> 24 = 10#32
  | (), .v6 _ => false

def headersOf (lines : List String) : HeaderMap :=
  ⟨fun name =>
    if name = xForwardedFor then lines.filterMap fun line => HeaderValue.ofStr line.toList else []⟩

/-- A client that writes an entry of its own, on a line of its own or not, behind a proxy whose
addresses come mapped or not: it is the one that the proxy names. -/
theorem clientIpOf_not_spoofable_proxied :
    clientIpOf privateNetwork [()] (.v4 0x0A000002#32) (headersOf ["1.1.1.1, 198.51.100.1"]) =
        clientIpOf privateNetwork [()] (.v6 0xFFFF0A000002#128)
          (headersOf ["x", "[::1]:80,::ffff:198.51.100.1"]) ∧
      clientIpOf privateNetwork [()] (.v4 0x0A000002#32) (headersOf ["1.1.1.1, 198.51.100.1"]) =
        .v4 0xC6336401#32 := by
  have hread : readHop (Utf8.encode " 198.51.100.1".toList) = some (.v4 0xC6336401#32) := by
    decide +kernel
  have hstops : StopsIn privateNetwork [()] (.v4 0x0A000002#32)
      [Utf8.encode " 198.51.100.1".toList] := by
    refine Or.inr ⟨_, List.mem_singleton_self _, ?_⟩
    intro ip hip
    obtain rfl : .v4 0xC6336401#32 = ip := Option.some.inj (hread.symm.trans hip)
    decide
  have hheaders : Carries (headersOf ["1.1.1.1, 198.51.100.1"])
      ([Utf8.encode "1.1.1.1".toList] ++ [Utf8.encode " 198.51.100.1".toList]) :=
    ⟨[[Utf8.encode "1.1.1.1".toList, Utf8.encode " 198.51.100.1".toList]], by decide +kernel⟩
  have hheaders' : Carries (headersOf ["x", "[::1]:80,::ffff:198.51.100.1"])
      ([Utf8.encode "x".toList, Utf8.encode "[::1]:80".toList] ++
        [Utf8.encode "::ffff:198.51.100.1".toList]) :=
    ⟨[[Utf8.encode "x".toList], [Utf8.encode "[::1]:80".toList,
      Utf8.encode "::ffff:198.51.100.1".toList]], by decide +kernel⟩
  have hpeer : (IpAddr.v6 0xFFFF0A000002#128).toCanonical =
      (IpAddr.v4 0x0A000002#32).toCanonical := by decide
  have hsuffix : [Utf8.encode "::ffff:198.51.100.1".toList].map readHop =
      [Utf8.encode " 198.51.100.1".toList].map readHop := by decide +kernel
  obtain ⟨hsame, hfound, -⟩ :=
    clientIpOf_not_spoofable hstops hpeer hsuffix hheaders hheaders'
  refine ⟨hsame, ?_⟩
  generalize clientIpOf privateNetwork [()] (.v4 0x0A000002#32)
    (headersOf ["1.1.1.1, 198.51.100.1"]) = client at hfound ⊢
  cases hfound with
  | peer huntrusted => exact absurd huntrusted (by decide)
  | untrusted before after entry hops ip hentries hhops htrusted hip =>
    obtain ⟨rfl, hone⟩ := List.append_eq_singleton_iff.mp hentries.symm |>.resolve_right (by simp)
    obtain ⟨rfl, -⟩ := List.cons.inj hone
    exact Option.some.inj (hip.symm.trans hread)
  | unparsable before after entry hops ip hentries hhops htrusted hentry =>
    obtain ⟨rfl, hone⟩ := List.append_eq_singleton_iff.mp hentries.symm |>.resolve_right (by simp)
    obtain ⟨rfl, -⟩ := List.cons.inj hone
    rw [hread] at hentry
    cases hentry

end Common

end WeaveAuth
