import Intellivault.Lib.Prefixes
import Intellivault.Agent.FetchRuns

/-!
# Which addresses the guard lets pass

The address classes of `ipaddress` in Python 3.13, as the lists of prefixes it keeps, and what
`guard_url` makes of them: `_ip_is_public` refuses six classes, and the shared space
`100.64.0.0/10` is in none of the six and not global either.
-/

namespace Intellivault.Agent.Fetch

open Lib

/-! ## The IPv4 classes -/

namespace IPv4

/-- `a.b.c.d/length` -/
def net (a b c d length : Nat)
    (clear : BitVec.ofNat 32 (a * 2 ^ 24 + b * 2 ^ 16 + c * 2 ^ 8 + d) &&& leading 32 length =
      BitVec.ofNat 32 (a * 2 ^ 24 + b * 2 ^ 16 + c * 2 ^ 8 + d) := by decide) : Prefix 32 :=
  ⟨BitVec.ofNat 32 (a * 2 ^ 24 + b * 2 ^ 16 + c * 2 ^ 8 + d), length, clear⟩

def linklocalNetwork : Prefix 32 := net 169 254 0 0 16

def loopbackNetwork : Prefix 32 := net 127 0 0 0 8

def multicastNetwork : Prefix 32 := net 224 0 0 0 4

/-- `_public_network`: the shared address space. -/
def publicNetwork : Prefix 32 := net 100 64 0 0 10

def privateNetworks : List (Prefix 32) :=
  [net 0 0 0 0 8, net 10 0 0 0 8, net 127 0 0 0 8, net 169 254 0 0 16, net 172 16 0 0 12,
    net 192 0 0 0 24, net 192 0 0 170 31, net 192 0 2 0 24, net 192 168 0 0 16, net 198 18 0 0 15,
    net 198 51 100 0 24, net 203 0 113 0 24, net 240 0 0 0 4, net 255 255 255 255 32]

def privateNetworksExceptions : List (Prefix 32) := [net 192 0 0 9 32, net 192 0 0 10 32]

def reservedNetwork : Prefix 32 := net 240 0 0 0 4

def unspecifiedAddress : BitVec 32 := 0

def isPrivate (a : BitVec 32) : Bool :=
  (∃ n ∈ privateNetworks, a ∈ n) ∧ ∀ n ∈ privateNetworksExceptions, a ∉ n

def isGlobal (a : BitVec 32) : Bool := a ∉ publicNetwork ∧ ¬isPrivate a

def flags (a : BitVec 32) : AddressFlags where
  isPrivate := isPrivate a
  isLoopback := a ∈ loopbackNetwork
  isLinkLocal := a ∈ linklocalNetwork
  isReserved := a ∈ reservedNetwork
  isMulticast := a ∈ multicastNetwork
  isUnspecified := a = unspecifiedAddress

end IPv4

/-! ## The IPv6 classes -/

namespace IPv6

/-- The prefix whose first four groups of 16 bits, and last one, are given. -/
def net (a b c d h length : Nat)
    (clear : BitVec.ofNat 128 (a * 2 ^ 112 + b * 2 ^ 96 + c * 2 ^ 80 + d * 2 ^ 64 + h) &&&
        leading 128 length =
      BitVec.ofNat 128 (a * 2 ^ 112 + b * 2 ^ 96 + c * 2 ^ 80 + d * 2 ^ 64 + h) := by decide) :
    Prefix 128 :=
  ⟨BitVec.ofNat 128 (a * 2 ^ 112 + b * 2 ^ 96 + c * 2 ^ 80 + d * 2 ^ 64 + h), length, clear⟩

def linklocalNetwork : Prefix 128 := net 0xfe80 0 0 0 0 10

def multicastNetwork : Prefix 128 := net 0xff00 0 0 0 0 8

/-- `::ffff:0:0/96`, the IPv4-mapped addresses. -/
def mappedNetwork : Prefix 128 := net 0 0 0 0 0xffff00000000 96

def privateNetworks : List (Prefix 128) :=
  [net 0 0 0 0 1 128, net 0 0 0 0 0 128, mappedNetwork, net 0x64 0xff9b 1 0 0 48,
    net 0x100 0 0 0 0 64, net 0x2001 0 0 0 0 23, net 0x2001 0xdb8 0 0 0 32, net 0x2002 0 0 0 0 16,
    net 0x3fff 0 0 0 0 20, net 0xfc00 0 0 0 0 7, net 0xfe80 0 0 0 0 10]

def privateNetworksExceptions : List (Prefix 128) :=
  [net 0x2001 1 0 0 1 128, net 0x2001 1 0 0 2 128, net 0x2001 3 0 0 0 32, net 0x2001 4 0x112 0 0 48,
    net 0x2001 0x20 0 0 0 28, net 0x2001 0x30 0 0 0 28]

def reservedNetworks : List (Prefix 128) :=
  [net 0 0 0 0 0 8, net 0x100 0 0 0 0 8, net 0x200 0 0 0 0 7, net 0x400 0 0 0 0 6,
    net 0x800 0 0 0 0 5, net 0x1000 0 0 0 0 4, net 0x4000 0 0 0 0 3, net 0x6000 0 0 0 0 3,
    net 0x8000 0 0 0 0 3, net 0xa000 0 0 0 0 3, net 0xc000 0 0 0 0 3, net 0xe000 0 0 0 0 4,
    net 0xf000 0 0 0 0 5, net 0xf800 0 0 0 0 6, net 0xfe00 0 0 0 0 9]

/-- `ipv4_mapped` -/
def ipv4Mapped (a : BitVec 128) : Option (BitVec 32) :=
  if a ∈ mappedNetwork then some (a.truncate 32) else none

def isPrivate (a : BitVec 128) : Bool :=
  (∃ n ∈ privateNetworks, a ∈ n) ∧ ∀ n ∈ privateNetworksExceptions, a ∉ n

/-- The attributes of an address that is not mapped. -/
def flags (a : BitVec 128) : AddressFlags where
  isPrivate := isPrivate a
  isLoopback := a = 1
  isLinkLocal := a ∈ linklocalNetwork
  isReserved := ∃ n ∈ reservedNetworks, a ∈ n
  isMulticast := a ∈ multicastNetwork
  isUnspecified := a = 0

end IPv6

/-! ## Addresses -/

/-- `IPv4Address | IPv6Address` -/
inductive Address where
  | v4 (a : BitVec 32)
  | v6 (a : BitVec 128)

namespace Address

/-- A mapped address stands for its IPv4 address. -/
def unmapped : Address → Address
  | .v4 a => .v4 a
  | .v6 a =>
      match IPv6.ipv4Mapped a with
      | some m => .v4 m
      | none => .v6 a

/-- The attributes of an address; a mapped one has those of its IPv4 address. -/
def flags (ip : Address) : AddressFlags :=
  match ip.unmapped with
  | .v4 a => IPv4.flags a
  | .v6 a => IPv6.flags a

/-- `is_global` -/
def isGlobal (ip : Address) : Bool :=
  match ip.unmapped with
  | .v4 a => IPv4.isGlobal a
  | .v6 a => ¬IPv6.isPrivate a

/-- The address, as far as the guard looks at it. -/
def ipAddress : Address → IPAddress
  | .v4 a => ⟨flags (.v4 a), none⟩
  | .v6 a => ⟨flags (.v6 a), (IPv6.ipv4Mapped a).map IPv4.flags⟩

/-- One of the six classes that `_ip_is_public` names. -/
def Refused (ip : Address) : Prop :=
  ip.flags.isPrivate ∨ ip.flags.isLoopback ∨ ip.flags.isLinkLocal ∨ ip.flags.isReserved ∨
    ip.flags.isMulticast ∨ ip.flags.isUnspecified

/-- In none of the six classes, and globally reachable. -/
def Public (ip : Address) : Prop := ¬ip.Refused ∧ ip.isGlobal

/-- The address is one of `100.64.0.0/10`, or stands for one. -/
def Shared (ip : Address) : Prop := ∃ a, ip.unmapped = .v4 a ∧ a ∈ IPv4.publicNetwork

end Address

/-- The libraries, with addresses that have the attributes of Python 3.13. -/
def Libs.reading (libs : Libs) (read : String → Except Exn Address) : Libs :=
  { libs with ipAddress := fun text => (read text).map Address.ipAddress }

/-! ## What the six classes leave -/

section Classes

variable {ip : Address}

theorem ipIsPublic_iff : ipIsPublic ip.ipAddress ↔ ¬ip.Refused := by
  have same : ip.ipAddress.ipv4Mapped.getD ip.ipAddress.toAddressFlags = ip.flags := by
    cases ip with
    | v4 a => rfl
    | v6 a => cases mapped : IPv6.ipv4Mapped a <;>
        simp only [Address.ipAddress, Address.flags, Address.unmapped, mapped, Option.map_some,
          Option.map_none, Option.getD_some, Option.getD_none]
  show decide (¬_) = true ↔ _
  rw [decide_eq_true_iff, same, Address.Refused]

/-- `::ffff:127.0.0.1` -/
example : ipIsPublic (Address.v6 0xffff7f000001).ipAddress = false := by decide

/-- An address outside of the six classes is global unless it is shared. -/
theorem isGlobal_iff (admitted : ¬ip.Refused) : ip.isGlobal ↔ ¬ip.Shared := by
  have notPrivate : ¬ip.flags.isPrivate := fun inside => admitted (.inl inside)
  unfold Address.flags at notPrivate
  unfold Address.isGlobal Address.Shared
  cases stands : ip.unmapped with
  | v4 a =>
      rw [stands] at notPrivate
      have outside : ¬IPv4.isPrivate a := notPrivate
      simp [IPv4.isGlobal, outside]
  | v6 a =>
      rw [stands] at notPrivate
      have outside : ¬IPv6.isPrivate a := notPrivate
      simp [outside]

/-- The shared space meets none of the six classes. -/
theorem shared_not_refused (shared : ip.Shared) : ¬ip.Refused := by
  obtain ⟨a, stands, inside⟩ := shared
  have notPrivate : ¬IPv4.isPrivate a := by
    have outside : ∀ n ∈ IPv4.privateNetworks, a ∉ n := Prefix.not_mem_of_apart (by decide) inside
    simp only [IPv4.isPrivate, decide_eq_true_iff, not_and]
    intro ⟨n, mem, here⟩
    exact (outside n mem here).elim
  have apart : ∀ n ∈ [IPv4.loopbackNetwork, IPv4.linklocalNetwork, IPv4.reservedNetwork,
      IPv4.multicastNetwork], a ∉ n := Prefix.not_mem_of_apart (by decide) inside
  have specified : a ≠ IPv4.unspecifiedAddress := by
    rintro rfl
    exact absurd inside (by decide)
  simp only [List.forall_mem_cons] at apart
  unfold Address.Refused Address.flags
  rw [stands]
  simp [IPv4.flags, notPrivate, apart, specified]

end Classes

/-! ## What the guard returns -/

section Outcome

variable {libs : Libs} {dns : String → Nat → Except Exn (List String)} {url host : String}
  {port : Nat} {addresses : List String} {wire wire' : Wire} {log : Log} {u : String}

/-- The URL has an allowed scheme, this host and this port. -/
def Asks (libs : Libs) (url host : String) (port : Nat) : Prop :=
  ∃ parts p, libs.urlsplit url = .ok parts ∧ parts.scheme ∈ allowedSchemes ∧
    parts.hostname = some host ∧ host ≠ "" ∧ parts.port = .ok p ∧ parts.portOr p = port

theorem checkAddresses_returns
    (isPublic : ∀ a ∈ addresses, ∃ ip, libs.ipAddress a = .ok ip ∧ ipIsPublic ip) :
    checkAddresses libs host addresses = .ret () := by
  induction addresses with
  | nil => rfl
  | cons address rest ih =>
      obtain ⟨⟨ip, parsed, admitted⟩, others⟩ := List.forall_mem_cons.mp isPublic
      rw [checkAddresses, parsed]
      show (if ipIsPublic ip then _ else _) = _
      rw [if_pos admitted, ih others]

/-- What passes is returned, after one lookup. -/
theorem guardUrl_passes (answer : dns host port = .ok addresses)
    (passes : Passes libs url host port addresses) :
    Prog.Runs (Web dns) (guardUrl libs url) wire [⟨.getaddrinfo host port, .ok addresses⟩]
      (Prog.ended (.ok url)) wire := by
  obtain ⟨⟨parts, p, split, scheme, hostname, given, read, rfl⟩, answered, isPublic⟩ := passes
  have started : guardUrl libs url = (do
      let addresses ← (resolve host (parts.portOr p)).handle fun x =>
        if x.isOSError then .raise (.ssrf ("cannot resolve " ++ pyRepr host ++ ": " ++ x.str))
        else .raise x
      if addresses = [] then .raise (.ssrf ("no DNS answer for " ++ pyRepr host))
      else do
        checkAddresses libs host addresses
        return url) := by
    rw [guardUrl, split]
    show (if _ then _ else _) = _
    rw [if_neg (by simp [scheme, hostname, given]), read, hostname]
    rfl
  rw [started]
  refine .step ⟨answer.symm, rfl⟩ ?_
  show Prog.Runs _ (if addresses = [] then _ else _) _ _ _ _
  rw [if_neg answered, checkAddresses_returns isPublic]
  exact .refl

/-- What is returned was looked up once, and passed. -/
theorem guardUrl_cleared
    (run : Prog.Runs (Web dns) (guardUrl libs url) wire log (Prog.ended (.ok u)) wire') :
    ∃ host port addresses, log = [⟨.getaddrinfo host port, .ok addresses⟩] ∧
      dns host port = .ok addresses ∧ Passes libs url host port addresses := by
  have room : ([] : Log).length < callBound ⟨0, 0, 0⟩ := by decide
  obtain ⟨short, -, cleared⟩ := (run.scripted real_of_web (guardUrl_scripted room)).2
  obtain ⟨-, host, port, addresses, answer, logged, passes⟩ := cleared u rfl
  obtain ⟨e, rfl⟩ := List.length_eq_one_iff.mp
    (Nat.le_antisymm short (List.length_pos_of_mem logged))
  exact ⟨host, port, addresses, by rw [List.mem_singleton.mp logged], answer, passes⟩

end Outcome

/-- **Which answers the guard lets pass.**  What `guard_url` returns was looked up, and got a
non-empty list of public addresses, if and only if no list of readable addresses outside of the
six classes that the resolver can give it has one of `100.64.0.0/10`, or mapped to one. -/
theorem guard_admits_public_iff (libs : Libs) (read : String → Except Exn Address)
    (dns : String → Nat → Except Exn (List String)) (url : String) :
    (∀ wire log u wire', Prog.Runs (Web dns) (guardUrl (libs.reading read) url) wire log
        (Prog.ended (.ok u)) wire' →
      ∃ host port, ∃ addresses : List String, log = [⟨.getaddrinfo host port, .ok addresses⟩] ∧
        addresses ≠ [] ∧ ∀ a ∈ addresses, ∃ ip, read a = .ok ip ∧ ip.Public) ↔
      ∀ host port addresses, Asks libs url host port → dns host port = .ok addresses →
        (∃ a ∈ addresses, ∀ ip, read a = .ok ip → ip.Refused) ∨
          ∀ a ∈ addresses, ∀ ip, read a = .ok ip → ¬ip.Shared := by
  constructor
  · intro admits host port addresses asks answer
    rw [or_iff_not_imp_left]
    intro none a mem ip parsed
    have admitted : ∀ a ∈ addresses, ∃ ip, read a = .ok ip ∧ ¬ip.Refused := by
      simpa only [not_exists, not_and, not_forall, exists_prop] using none
    have passes : Passes (libs.reading read) url host port addresses := by
      refine ⟨asks, List.ne_nil_of_mem mem, fun a mem => ?_⟩
      obtain ⟨ip, parsed, outside⟩ := admitted a mem
      exact ⟨ip.ipAddress, by simp [Libs.reading, parsed, Except.map], ipIsPublic_iff.mpr outside⟩
    obtain ⟨_, _, _, logged, -, isPublic⟩ :=
      admits ⟨.nil, .nil⟩ _ _ _ (guardUrl_passes answer passes)
    cases logged
    obtain ⟨_, parsed', outside, isGlobal⟩ := isPublic a mem
    cases parsed.symm.trans parsed'
    exact (isGlobal_iff outside).mp isGlobal
  · intro apart wire log u wire' run
    obtain ⟨host, port, (addresses : List String), logged, answer, asks, answered, isPublic⟩ :=
      guardUrl_cleared run
    have admitted : ∀ a ∈ addresses, ∃ ip, read a = .ok ip ∧ ¬ip.Refused := by
      intro a mem
      obtain ⟨ip, parsed, admitted⟩ := isPublic a mem
      cases h : read a with
      | error x => simp [Libs.reading, h, Except.map] at parsed
      | ok ip' =>
          simp only [Libs.reading, h, Except.map, Except.ok.injEq] at parsed
          subst parsed
          exact ⟨ip', rfl, ipIsPublic_iff.mp admitted⟩
    refine ⟨host, port, addresses, logged, answered, fun a mem => ?_⟩
    obtain ⟨ip, parsed, outside⟩ := admitted a mem
    rcases apart host port addresses asks answer with ⟨b, here, refused⟩ | unshared
    · obtain ⟨_, parsed', outside'⟩ := admitted b here
      exact (outside' (refused _ parsed')).elim
    · exact ⟨ip, parsed, outside, (isGlobal_iff outside).mpr (unshared a mem ip parsed)⟩

/-- Every answer within the shared space is let through. -/
theorem guard_admits_shared {libs : Libs} {read : String → Except Exn Address}
    {dns : String → Nat → Except Exn (List String)} {url host : String} {port : Nat}
    {addresses : List String} {wire : Wire} (asks : Asks libs url host port)
    (answer : dns host port = .ok addresses) (answered : addresses ≠ [])
    (shared : ∀ a ∈ addresses, ∃ ip, read a = .ok ip ∧ ip.Shared) :
    Prog.Runs (Web dns) (guardUrl (libs.reading read) url) wire
      [⟨.getaddrinfo host port, .ok addresses⟩] (Prog.ended (.ok url)) wire := by
  refine guardUrl_passes answer ⟨asks, answered, fun a mem => ?_⟩
  obtain ⟨ip, parsed, inside⟩ := shared a mem
  exact ⟨ip.ipAddress, by simp [Libs.reading, parsed, Except.map],
    ipIsPublic_iff.mpr (shared_not_refused inside)⟩

/-! ## A host in the shared space -/

/-- Only one text is read here. -/
def exampleRead (text : String) : Except Exn Address :=
  if text = "100.64.0.1" then .ok (.v4 0x64400001)
  else .error (.valueError (text ++ " does not appear to be an IPv4 or IPv6 address"))

/-- `http://example.com/`, resolved to `100.64.0.1`, is let through. -/
theorem shared_address_admitted :
    ¬∀ (libs : Libs) (read : String → Except Exn Address)
        (dns : String → Nat → Except Exn (List String)) (url : String) (wire : Wire) (log : Log)
        (u : String) (wire' : Wire), Prog.Runs (Web dns) (guardUrl (libs.reading read) url) wire log
          (Prog.ended (.ok u)) wire' →
        ∃ host port, ∃ addresses : List String, log = [⟨.getaddrinfo host port, .ok addresses⟩] ∧
          addresses ≠ [] ∧ ∀ a ∈ addresses, ∃ ip, read a = .ok ip ∧ ip.Public := by
  intro admits
  have asks : Asks exampleLibs "http://example.com/" "example.com" 80 :=
    ⟨_, none, rfl, by decide, rfl, by decide, rfl, rfl⟩
  have shared : ∀ a ∈ ["100.64.0.1"], ∃ ip, exampleRead a = .ok ip ∧ ip.Shared := by
    intro a mem
    rw [List.mem_singleton.mp mem]
    exact ⟨.v4 0x64400001, rfl, _, rfl, by decide⟩
  have run : Prog.Runs (Web fun _ _ => .ok ["100.64.0.1"])
      (guardUrl (exampleLibs.reading exampleRead) "http://example.com/") ⟨.nil, .nil⟩ _
      (Prog.ended (.ok _)) _ := guard_admits_shared asks rfl (by decide) shared
  obtain ⟨_, _, _, logged, -, isPublic⟩ := admits _ _ _ _ _ _ _ _ run
  cases logged
  obtain ⟨ip, parsed, -, isGlobal⟩ := isPublic _ (List.mem_singleton_self _)
  cases parsed
  exact absurd isGlobal (by decide)

end Intellivault.Agent.Fetch
