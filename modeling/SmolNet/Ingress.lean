import SmolNet.Script

/-!
# Ingress validation

The `Stack` process checks what a link hands in before it calls the native stack: the shape of the
term, the number of packets and of octets, and each packet's header.  What it accepts the native
stack accepts too.  The two sides add up the words of an IPv4 header in different byte orders, which
is the same modulo `65535`.
-/

namespace SmolNet

/-- The terms a caller can pass, as far as the checks tell them apart. -/
inductive Term where
  | integer (value : Int)
  | binary (octets : List UInt8)
  | nil
  | cons (head tail : Term)
  | other
deriving DecidableEq, Repr

/-- A proper list. -/
def Term.list : List Term → Term
  | [] => .nil
  | head :: rest => .cons head (list rest)

/-! ## Options -/

namespace Options

inductive OptionError where
  | invalidMtu | invalidLimits
deriving DecidableEq, Repr

inductive LimitName where
  | bytesCopied | inputPackets | outputPackets | readyEvents | maintenanceWork | sockets
deriving DecidableEq, Repr

def defaultLimits : LimitName → Int
  | .bytesCopied => 64 * 1024
  | .inputPackets => 1
  | .outputPackets => 32
  | .readyEvents => 128
  | .maintenanceWork => 128
  | .sockets => 64

def maxLimits : LimitName → Int
  | .bytesCopied => 65575
  | .inputPackets => 32
  | .outputPackets => 32
  | .readyEvents => 128
  | .maintenanceWork => 128
  | .sockets => 512

def mtu : Term → Except OptionError Nat
  | .integer value => if 1280 ≤ value ∧ value ≤ 65575 then .ok value.toNat else .error .invalidMtu
  | _ => .error .invalidMtu

/-- The map of given limits; the key `none` stands for every key that names no limit. -/
abbrev Overrides := Option LimitName → Option Term

def merged (overrides : Overrides) (name : LimitName) : Term :=
  (overrides (some name)).getD (.integer (defaultLimits name))

/-- The value of a limit, if it is one that the limit may have. -/
def value (overrides : Overrides) (name : LimitName) : Option Nat :=
  match merged overrides name with
  | .integer value => if 0 < value ∧ value ≤ maxLimits name then some value.toNat else none
  | _ => none

def mergedLimits (overrides : Overrides) (mtu : Nat) : Except OptionError Limits :=
  match overrides none, value overrides .bytesCopied, value overrides .inputPackets,
    value overrides .outputPackets, value overrides .readyEvents, value overrides .maintenanceWork,
    value overrides .sockets with
  | none, some bytesCopied, some inputPackets, some outputPackets, some readyEvents,
    some maintenanceWork, some sockets =>
      if mtu ≤ bytesCopied then
        .ok ⟨bytesCopied, inputPackets, outputPackets, readyEvents, maintenanceWork, sockets⟩
      else .error .invalidLimits
  | _, _, _, _, _, _, _ => .error .invalidLimits

/-- The given limits over the default ones; `none` is a value that is no map. -/
def limits (overrides : Option Overrides) (mtu : Nat) : Except OptionError Limits :=
  overrides.elim (.error .invalidLimits) fun overrides => mergedLimits overrides mtu

/-- The two options that ingress depends on. -/
def parse (mtuValue : Option Term) (overrides : Option (Option Overrides)) :
    Except OptionError (Nat × Limits) := do
  let mtu ← mtu (mtuValue.getD (.integer 1500))
  let limits ← limits (overrides.getD (some fun _ => none)) mtu
  return (mtu, limits)

theorem value_bounds {overrides : Overrides} {name : LimitName} {n : Nat}
    (h : value overrides name = some n) : 1 ≤ n ∧ n ≤ (maxLimits name).toNat := by
  unfold value at h
  split at h
  · split at h
    · obtain rfl := Option.some.inj h
      omega
    · simp at h
  · simp at h

/-- Accepted limits are valid, and a whole packet can be copied in one call. -/
theorem mergedLimits_valid {overrides : Overrides} {mtu : Nat} {accepted : Limits}
    (h : mergedLimits overrides mtu = .ok accepted) :
    accepted.Valid ∧ mtu ≤ accepted.bytesCopied := by
  unfold mergedLimits at h
  split at h
  · rename_i hbytes hinput houtput hready hwork hsockets
    split at h
    · rename_i hmtu
      obtain rfl := Except.ok.inj h
      exact ⟨⟨value_bounds hbytes, value_bounds hinput, value_bounds houtput, value_bounds hready,
        value_bounds hwork, value_bounds hsockets⟩, hmtu⟩
    · simp at h
  · simp at h

theorem parse_valid {mtuValue : Option Term} {overrides : Option (Option Overrides)} {mtu : Nat}
    {accepted : Limits} (h : parse mtuValue overrides = .ok (mtu, accepted)) :
    accepted.Valid ∧ mtu ≤ accepted.bytesCopied := by
  unfold parse at h
  cases hmtu : Options.mtu (mtuValue.getD (.integer 1500)) with
  | error e =>
      rw [hmtu] at h
      cases h
  | ok given =>
      rw [hmtu] at h
      cases hoverrides : overrides.getD (some fun _ => none) with
      | none =>
          rw [hoverrides] at h
          cases h
      | some merged =>
          rw [hoverrides] at h
          cases hlimits : mergedLimits merged given with
          | error e =>
              simp [limits, hlimits, bind, Except.bind] at h
          | ok result =>
              simp [limits, hlimits, bind, Except.bind, pure, Except.pure] at h
              obtain ⟨rfl, rfl⟩ := h
              exact mergedLimits_valid hlimits

end Options

/-! ## The checks of the process -/

namespace Stack

/-- `crash` is a call that no clause of a function matches. -/
inductive IngressError where
  | invalidPacket | packetTooLarge | batchTooLarge | crash
deriving DecidableEq, Repr

def sumWords : Packet → Nat → Except IngressError Nat
  | a :: b :: rest, sum => sumWords rest (sum + (a.toNat * 256 + b.toNat))
  | [], sum => .ok sum
  | [_], _ => .error .crash

/-- The ten words of the fixed header at once, then the options a word at a time. -/
def ipv4HeaderSum (header : Packet) : Except IngressError Nat :=
  if header.length < 20 then .error .crash
  else sumWords (header.drop 20) ((List.range 10).map fun i => Wire.word header (2 * i)).sum

def foldChecksum (sum : Nat) : Nat :=
  if 0xFFFF < sum then foldChecksum (sum % 0x10000 + sum / 0x10000) else sum
termination_by sum
decreasing_by omega

def validIpv4Checksum (header : Packet) : Except IngressError Bool :=
  (ipv4HeaderSum header).map fun sum => ~~~(BitVec.ofNat 16 (foldChecksum sum)) == 0#16

def validateIpv6Packet (packet : Packet) (mtu : Nat) : Except IngressError Unit :=
  if packet.length < 40 then .error .invalidPacket
  else if packet.length ≠ 40 + Wire.word packet 4 then .error .invalidPacket
  else if mtu < packet.length then .error .packetTooLarge
  else .ok ()

def validateIpv4Packet (packet : Packet) (mtu ihl totalLength flags fragmentOffset : Nat) :
    Except IngressError Unit :=
  if ihl < 5 then .error .invalidPacket
  else if totalLength ≠ packet.length then .error .invalidPacket
  else if packet.length < ihl * 4 then .error .invalidPacket
  else if flags % 2 ≠ 0 ∨ fragmentOffset ≠ 0 then .error .invalidPacket
  else do
    let valid ← validIpv4Checksum (packet.take (ihl * 4))
    if !valid then .error .invalidPacket
    else if mtu < packet.length then .error .packetTooLarge
    else .ok ()

def validatePacket (packet : Packet) (mtu : Nat) : Except IngressError Unit :=
  if 20 ≤ packet.length then
    if Wire.version packet = 6 then validateIpv6Packet packet mtu
    else if Wire.version packet = 4 then
      validateIpv4Packet packet mtu (Wire.byte packet 0 % 16) (Wire.word packet 2)
        (Wire.word packet 6 / 0x2000) (Wire.word packet 6 % 0x2000)
    else .error .invalidPacket
  else .error .invalidPacket

def validateBatch : Term → Nat → Limits → Nat → Nat → Except IngressError Nat
  | .nil, _, _, packetCount, _ => .ok packetCount
  | .cons packet packets, mtu, limits, packetCount, byteCount =>
      if limits.inputPackets < packetCount + 1 then .error .batchTooLarge
      else
        match packet with
        | .binary octets =>
            if limits.bytesCopied < byteCount + octets.length then .error .batchTooLarge
            else do
              validatePacket octets mtu
              validateBatch packets mtu limits (packetCount + 1) (byteCount + octets.length)
        | _ => .error .invalidPacket
  | _, _, _, _, _ => .error .invalidPacket

/-- The number of packets in what was handed in. -/
def validateIngress (input : Term) (mtu : Nat) (limits : Limits) : Except IngressError Nat :=
  match input with
  | .binary packet => (validatePacket packet mtu).map fun _ => 1
  | .nil | .cons _ _ => validateBatch input mtu limits 0 0
  | _ => .error .invalidPacket

/-! ## The two checksums -/

/-- The sum of the 16-bit words in network order. -/
def wordSum : Packet → Nat
  | a :: b :: rest => a.toNat * 256 + b.toNat + wordSum rest
  | _ => 0

theorem sumWords_eq {octets : Packet} (h : octets.length % 2 = 0) (sum : Nat) :
    sumWords octets sum = .ok (sum + wordSum octets) := by
  induction octets, sum using sumWords.induct with
  | case1 a b rest sum ih =>
      rw [List.length_cons, List.length_cons] at h
      rw [sumWords, ih (by omega), wordSum, Nat.add_assoc]
  | case2 sum => rfl
  | case3 a sum => simp at h

theorem wordSum_drop {octets : Packet} {n : Nat} (h : 2 * (n + 1) ≤ octets.length) :
    wordSum (octets.drop (2 * n)) = Wire.word octets (2 * n) + wordSum (octets.drop (2 * (n + 1))) := by
  rw [List.drop_eq_getElem_cons (by omega), List.drop_eq_getElem_cons (by omega), wordSum, Wire.word,
    Wire.byte, Wire.byte, List.getD_eq_getElem _ _ (by omega), List.getD_eq_getElem _ _ (by omega)]
  rfl

/-- The first `n` words, then those of the rest. -/
theorem wordSum_split {octets : Packet} (n : Nat) (h : 2 * n ≤ octets.length) :
    wordSum octets =
      ((List.range n).map fun i => Wire.word octets (2 * i)).sum + wordSum (octets.drop (2 * n)) := by
  induction n with
  | zero => simp
  | succ n ih =>
      rw [ih (by omega), wordSum_drop h, List.range_succ, List.map_append, List.sum_append]
      simp only [List.map_cons, List.map_nil, List.sum_cons, List.sum_nil]
      omega

theorem ipv4HeaderSum_eq {header : Packet} (hlength : 20 ≤ header.length)
    (heven : header.length % 2 = 0) : ipv4HeaderSum header = .ok (wordSum header) := by
  unfold ipv4HeaderSum
  rw [if_neg (by omega), sumWords_eq (by rw [List.length_drop]; omega), wordSum_split 10 hlength]

/-- Exchanging the octets of every word multiplies the sum by `256`, modulo `65535`. -/
theorem hostSum_eq {octets : Packet} (h : octets.length % 2 = 0) :
    ∃ high, 256 * wordSum octets = Wire.Ipv4.hostSum octets + 65535 * high := by
  induction octets using wordSum.induct with
  | case1 a b rest ih =>
      rw [List.length_cons, List.length_cons] at h
      obtain ⟨high, hrest⟩ := ih (by omega)
      refine ⟨a.toNat + high, ?_⟩
      rw [wordSum, Wire.Ipv4.hostSum]
      omega
  | case2 octets hshort =>
      match octets with
      | [] => exact ⟨0, rfl⟩
      | [a] => simp at h
      | a :: b :: rest => exact (hshort a b rest rfl).elim

theorem hostSum_eq_zero_iff {octets : Packet} (h : octets.length % 2 = 0) :
    Wire.Ipv4.hostSum octets = 0 ↔ wordSum octets = 0 := by
  induction octets using Wire.Ipv4.hostSum.induct with
  | case1 => simp [Wire.Ipv4.hostSum, wordSum]
  | case2 a => simp at h
  | case3 a b rest ih =>
      rw [List.length_cons, List.length_cons] at h
      have hrest := ih (by omega)
      rw [Wire.Ipv4.hostSum, wordSum]
      omega

theorem hostSum_le {octets : Packet} (h : octets.length % 2 = 0) :
    2 * Wire.Ipv4.hostSum octets ≤ 65535 * octets.length := by
  induction octets using Wire.Ipv4.hostSum.induct with
  | case1 => simp [Wire.Ipv4.hostSum]
  | case2 a => simp at h
  | case3 a b rest ih =>
      rw [List.length_cons, List.length_cons] at h
      have hrest := ih (by omega)
      have ha := a.toNat_lt
      have hb := b.toNat_lt
      rw [Wire.Ipv4.hostSum, List.length_cons, List.length_cons]
      omega

/-- A sum folds to all ones when it is a positive multiple of `65535`. -/
theorem foldChecksum_eq_iff (sum : Nat) :
    foldChecksum sum = 65535 ↔ 0 < sum ∧ sum % 65535 = 0 := by
  induction sum using foldChecksum.induct with
  | case1 sum hlarge ih =>
      rw [foldChecksum, if_pos hlarge, ih]
      omega
  | case2 sum hsmall =>
      rw [foldChecksum, if_neg hsmall]
      omega

theorem foldChecksum_le (sum : Nat) : foldChecksum sum ≤ 65535 := by
  induction sum using foldChecksum.induct with
  | case1 sum hlarge ih =>
      rw [foldChecksum, if_pos hlarge]
      exact ih
  | case2 sum hsmall =>
      rw [foldChecksum, if_neg hsmall]
      omega

theorem propagateCarries_eq_iff {sum : Nat} (h : sum < 2 ^ 32) :
    Wire.Ipv4.propagateCarries sum = 65535 ↔ 0 < sum ∧ sum % 65535 = 0 := by
  simp only [Wire.Ipv4.propagateCarries]
  have hfolded : sum / 65536 + sum % 65536 ≤ 131070 := by omega
  have hsame : (0 < sum ∧ sum % 65535 = 0) ↔
      0 < sum / 65536 + sum % 65536 ∧ (sum / 65536 + sum % 65536) % 65535 = 0 := by omega
  rw [hsame]
  generalize sum / 65536 + sum % 65536 = folded at hfolded
  have htwice : folded / 65536 + folded % 65536 < 65536 := by omega
  rw [Nat.mod_eq_of_lt htwice]
  omega

theorem checksum_eq_iff {octets : Packet} (h : Wire.Ipv4.hostSum octets < 2 ^ 32) :
    Wire.Ipv4.checksum octets = 0xffff ↔
      0 < Wire.Ipv4.hostSum octets ∧ Wire.Ipv4.hostSum octets % 65535 = 0 := by
  rw [← propagateCarries_eq_iff h]
  unfold Wire.Ipv4.checksum Wire.Ipv4.swapBytes
  rw [Nat.mod_eq_of_lt h]
  have hlt : Wire.Ipv4.propagateCarries (Wire.Ipv4.hostSum octets) < 65536 := by
    simp only [Wire.Ipv4.propagateCarries]
    omega
  omega

theorem complement_eq_zero_iff {n : Nat} (h : n ≤ 65535) :
    (~~~(BitVec.ofNat 16 n) == 0#16) = true ↔ n = 65535 := by
  rw [beq_iff_eq, ← BitVec.toNat_inj, BitVec.toNat_not, BitVec.toNat_ofNat, BitVec.toNat_ofNat]
  omega

/-- For every header of a whole number of words the two checksums agree. -/
theorem validIpv4Checksum_eq {header : Packet} (hlength : 20 ≤ header.length ∧ header.length ≤ 60)
    (heven : header.length % 2 = 0) :
    validIpv4Checksum header = .ok (Wire.Ipv4.checksum header == 0xffff) := by
  have hle := hostSum_le heven
  obtain ⟨high, hswap⟩ := hostSum_eq heven
  have hagree : (~~~(BitVec.ofNat 16 (foldChecksum (wordSum header))) == 0#16) = true ↔
      (Wire.Ipv4.checksum header == 0xffff) = true := by
    rw [complement_eq_zero_iff (foldChecksum_le _), foldChecksum_eq_iff, beq_iff_eq,
      checksum_eq_iff (by omega)]
    -- Both sums are zero together, and `256` is invertible modulo `65535`.
    have hzero := hostSum_eq_zero_iff heven
    omega
  unfold validIpv4Checksum
  rw [ipv4HeaderSum_eq hlength.1 heven]
  exact congrArg Except.ok (Bool.eq_iff_iff.2 hagree)

/-! ## What is accepted -/

theorem validateIpv6Packet_ok {packet : Packet} {mtu : Nat}
    (h : validateIpv6Packet packet mtu = .ok ()) :
    40 ≤ packet.length ∧ packet.length = 40 + Wire.word packet 4 ∧ packet.length ≤ mtu := by
  unfold validateIpv6Packet at h
  split at h
  · cases h
  · split at h
    · cases h
    · split at h
      · cases h
      · omega

theorem validateIpv4Packet_ok {packet : Packet} {mtu ihl totalLength flags fragmentOffset : Nat}
    (hihl : ihl < 16)
    (h : validateIpv4Packet packet mtu ihl totalLength flags fragmentOffset = .ok ()) :
    5 ≤ ihl ∧ totalLength = packet.length ∧ ihl * 4 ≤ packet.length ∧ flags % 2 = 0 ∧
      fragmentOffset = 0 ∧ Wire.Ipv4.checksum (packet.take (ihl * 4)) = 0xffff ∧ packet.length ≤ mtu := by
  unfold validateIpv4Packet at h
  split at h
  · cases h
  · split at h
    · cases h
    · split at h
      · cases h
      · split at h
        · cases h
        · have hlength : (packet.take (ihl * 4)).length = ihl * 4 := by
            rw [List.length_take]
            omega
          rw [validIpv4Checksum_eq (by omega) (by omega)] at h
          simp only [bind, Except.bind] at h
          split at h
          · cases h
          · rename_i hchecksum
            rw [Bool.not_eq_true, Bool.not_eq_false'] at hchecksum
            split at h
            · cases h
            · refine ⟨by omega, by omega, by omega, by omega, by omega, ?_, by omega⟩
              exact beq_iff_eq.1 hchecksum

/-- What the process accepts, the native stack accepts. -/
theorem validatePacket_native {packet : Packet} {mtu bytesCopied : Nat} (hmtu : mtu ≤ bytesCopied)
    (h : validatePacket packet mtu = .ok ()) :
    Wire.validateRawPacket packet mtu bytesCopied = .ok () ∧ packet.length ≤ mtu := by
  unfold validatePacket at h
  split at h
  · rename_i hlength
    have hne : packet ≠ [] := by
      rintro rfl
      simp at hlength
    split at h
    · rename_i hversion
      obtain ⟨hheader, hdeclared, hle⟩ := validateIpv6Packet_ok h
      have hvalid : (Wire.Ipv6.newChecked packet &&
          40 + Wire.Ipv6.payloadLen packet == packet.length) = true := by
        simp only [Wire.Ipv6.newChecked, Bool.and_eq_true, decide_eq_true_eq, beq_iff_eq]
        unfold Wire.Ipv6.payloadLen
        omega
      refine ⟨?_, hle⟩
      simp [Wire.validateRawPacket, hversion, hne, hvalid]
      omega
    · split at h
      · rename_i hversion
        obtain ⟨hihl, htotal, hheader, hflags, hoffset, hchecksum, hle⟩ :=
          validateIpv4Packet_ok (Nat.mod_lt _ (by omega)) h
        have hvalid : (Wire.Ipv4.newChecked packet && Wire.Ipv4.totalLen packet == packet.length &&
            Wire.Ipv4.verifyChecksum packet && !Wire.Ipv4.moreFrags packet &&
            Wire.Ipv4.fragOffset packet == 0) = true := by
          have hverified : Wire.Ipv4.verifyChecksum packet = true := by
            rw [Wire.Ipv4.verifyChecksum, Wire.Ipv4.headerLen, hchecksum]
            rfl
          simp only [Wire.Ipv4.newChecked, Wire.Ipv4.moreFrags, hverified, Bool.and_eq_true,
            decide_eq_true_eq, beq_iff_eq, Bool.not_eq_true', beq_eq_false_iff_ne, and_true]
          unfold Wire.Ipv4.totalLen Wire.Ipv4.headerLen Wire.Ipv4.fragOffset
          omega
        refine ⟨?_, hle⟩
        simp [Wire.validateRawPacket, hversion, hne, hvalid]
        omega
      · cases h
  · cases h

/-- The packets that a term holds: one binary, or a proper list of binaries. -/
def Holds (input : Term) (packets : List Packet) : Prop :=
  (∃ packet, input = .binary packet ∧ packets = [packet]) ∨ input = Term.list (packets.map .binary)

theorem validateBatch_ok {input : Term} {mtu : Nat} {limits : Limits} {packetCount byteCount n : Nat}
    (hcount : packetCount ≤ limits.inputPackets) (hbytes : byteCount ≤ limits.bytesCopied)
    (h : validateBatch input mtu limits packetCount byteCount = .ok n) :
    ∃ packets : List Packet, input = Term.list (packets.map .binary) ∧
      packetCount + packets.length = n ∧ n ≤ limits.inputPackets ∧
      byteCount + (packets.map List.length).sum ≤ limits.bytesCopied ∧
      ∀ packet ∈ packets, validatePacket packet mtu = .ok () := by
  induction input generalizing packetCount byteCount with
  | nil =>
      obtain rfl := Except.ok.inj h
      exact ⟨[], rfl, rfl, hcount, by simpa using hbytes, by simp⟩
  | cons head tail _ ih =>
      unfold validateBatch at h
      split at h
      · cases h
      · rename_i hroom
        cases head with
        | binary octets =>
            dsimp only at h
            split at h
            · cases h
            · rename_i hfits
              cases hpacket : validatePacket octets mtu with
              | error e =>
                  rw [hpacket] at h
                  cases h
              | ok _ =>
                  rw [hpacket] at h
                  obtain ⟨packets, htail, hlength, hle, htotal, hvalid⟩ := ih (by omega) (by omega) h
                  refine ⟨octets :: packets, ?_, ?_, hle, ?_, ?_⟩
                  · rw [htail]
                    rfl
                  · rw [List.length_cons]
                    omega
                  · rw [List.map_cons, List.sum_cons]
                    omega
                  · rw [List.forall_mem_cons]
                    exact ⟨hpacket, hvalid⟩
        | _ => cases h
  | _ => cases h

theorem validateIngress_ok {input : Term} {mtu n : Nat} {limits : Limits} (hlimits : limits.Valid)
    (hmtu : mtu ≤ limits.bytesCopied) (h : validateIngress input mtu limits = .ok n) :
    ∃ packets : List Packet, Holds input packets ∧ packets.length = n ∧ n ≤ limits.inputPackets ∧
      (packets.map List.length).sum ≤ limits.bytesCopied ∧
      ∀ packet ∈ packets, Wire.validateRawPacket packet mtu limits.bytesCopied = .ok () := by
  have hbatch : validateBatch input mtu limits 0 0 = .ok n →
      ∃ packets : List Packet, Holds input packets ∧ packets.length = n ∧ n ≤ limits.inputPackets ∧
        (packets.map List.length).sum ≤ limits.bytesCopied ∧
        ∀ packet ∈ packets, Wire.validateRawPacket packet mtu limits.bytesCopied = .ok () := by
    intro h
    obtain ⟨packets, hinput, hlength, hle, htotal, hvalid⟩ :=
      validateBatch_ok (Nat.zero_le _) (Nat.zero_le _) h
    refine ⟨packets, .inr hinput, by omega, hle, by omega, fun packet hpacket => ?_⟩
    exact (validatePacket_native hmtu (hvalid packet hpacket)).1
  cases input with
  | binary packet =>
      simp only [validateIngress] at h
      cases hpacket : validatePacket packet mtu with
      | error e =>
          rw [hpacket] at h
          cases h
      | ok _ =>
          rw [hpacket] at h
          obtain rfl := Except.ok.inj h
          obtain ⟨hnative, hle⟩ := validatePacket_native hmtu hpacket
          refine ⟨[packet], .inl ⟨packet, rfl, rfl⟩, rfl, hlimits.2.1.1, ?_, ?_⟩
          · simpa using hle.trans hmtu
          · simpa using hnative
  | nil => exact hbatch h
  | cons head tail => exact hbatch h
  | _ => cases h

end Stack

/-! ## The native side -/

namespace NativeStack

open Program BeamDevice

variable {s : NativeStack}

theorem validateBatch_accepts {packets : List Packet} {copied : Nat}
    (hvalid : ∀ packet ∈ packets, Wire.validateRawPacket packet s.mtu s.limits.bytesCopied = .ok ())
    (htotal : copied + (packets.map List.length).sum ≤ s.limits.bytesCopied) :
    wp (validateBatch packets copied) (fun _ s' => s' = s) (fun _ _ => False) s := by
  induction packets generalizing copied with
  | nil => exact rfl
  | cons packet rest ih =>
      rw [List.forall_mem_cons] at hvalid
      rw [List.map_cons, List.sum_cons] at htotal
      unfold validateBatch validatePacket
      simp only [wp_bind, wp_get, wp_require, hvalid.1, wp_pure]
      exact ⟨fun _ => ih hvalid.2 (by omega), fun hlarge => hlarge (by omega)⟩

/-- A running stack with room takes every batch that passes the checks. -/
theorem ingressBatch_accepts (hs : s.Sound) (hrunning : s.lifecycle = .running) {packets : List Packet}
    (hlength : packets.length ≤ s.limits.inputPackets)
    (hvalid : ∀ packet ∈ packets, Wire.validateRawPacket packet s.mtu s.limits.bytesCopied = .ok ())
    (htotal : (packets.map List.length).sum ≤ s.limits.bytesCopied)
    (hfits : s.device.receiveFits packets.length = true) (now : Instant) (result : Reply) :
    wp (do
        let effects ← ingressBatch packets now
        finishCall result effects []) (fun _ _ => True) (fun _ _ => False) s := by
  unfold ingressBatch
  simp only [wp_bind, wp_get, wp_require]
  refine ⟨fun _ => ⟨fun _ => ?_, fun hlarge => hlarge hlength⟩, fun hdown => hdown hrunning⟩
  refine wp_mono (validateBatch_accepts hvalid (by omega)) ?_ fun _ _ h => h
  intro copied t ht
  obtain rfl : s = t := ht.symm
  refine ⟨fun _ => ?_, fun hfull => hfull hfits⟩
  rw [wp_set]
  have hcounted : Prepares Gentle s [] { s with
      counters := { s.counters with ingressPackets := s.counters.ingressPackets + packets.length } } :=
    .step (.drive (.tick { s with
      counters := { s.counters with ingressPackets := s.counters.ingressPackets + packets.length } }
      le_rfl (.of_polls rfl rfl))) trivial rfl rfl
  exact wp_mono (driveBatch_spec (hcounted.sound hs) now copied fun _ => hfits) (fun _ _ _ => trivial)
    fun _ _ h => h

theorem ingressBatch_call_accepts (hs : s.Regular) (hrunning : s.lifecycle = .running)
    {packets : List Packet} (hlength : packets.length ≤ s.limits.inputPackets)
    (hvalid : ∀ packet ∈ packets, Wire.validateRawPacket packet s.mtu s.limits.bytesCopied = .ok ())
    (htotal : (packets.map List.length).sum ≤ s.limits.bytesCopied)
    (hfits : s.device.receiveFits packets.length = true) (now : Int) (world : World) :
    ∃ envelope, (s.call (.ingressBatch packets now) world).1 = .envelope envelope := by
  have hspec : wp (Call.ingressBatch packets now).program (fun _ _ => True) (fun _ _ => False)
      (s.beginCall world) := by
    rw [Call.program, Call.onStack, wp_mapError]
    exact ingressBatch_accepts (hs.beginCall world).sound hrunning hlength hvalid htotal hfits _ _
  unfold NativeStack.call
  cases hprogram : (Call.ingressBatch packets now).program (s.beginCall world) with
  | ok envelope t => exact ⟨envelope, rfl⟩
  | error fault t =>
      cases fault with
      | error error =>
          have hfalse := wp_error hspec hprogram
          exact hfalse.elim
      | panic => simp [wp, hprogram] at hspec

end NativeStack

namespace Stack

/-- Whatever the process accepts is a binary or a proper list of binaries, no more than the stack
takes at once, and the native stack takes it when it runs and has room.  The two checksums agree on
every header. -/
theorem validateIngress_sufficient {mtuValue : Option Term}
    {overrides : Option (Option Options.Overrides)} {mtu : Nat} {limits : Limits}
    (hoptions : Options.parse mtuValue overrides = .ok (mtu, limits)) {input : Term} {n : Nat}
    (h : validateIngress input mtu limits = .ok n) :
    (∃ packets : List Packet, Holds input packets ∧ packets.length = n ∧ n ≤ limits.inputPackets ∧
      ∀ s : NativeStack, NativeStack.Reachable s → s.lifecycle = .running → s.mtu = mtu →
        s.limits = limits → s.device.receiveFits n = true → ∀ (now : Int) (world : World),
        ∃ envelope, (s.call (.ingressBatch packets now) world).1 = .envelope envelope) ∧
      ∀ header : Packet, 20 ≤ header.length ∧ header.length ≤ 60 → header.length % 4 = 0 →
        validIpv4Checksum header = .ok (Wire.Ipv4.checksum header == 0xffff) := by
  obtain ⟨hlimits, hmtu⟩ := Options.parse_valid hoptions
  obtain ⟨packets, hholds, rfl, hle, htotal, hvalid⟩ := validateIngress_ok hlimits hmtu h
  refine ⟨⟨packets, hholds, rfl, hle, ?_⟩, fun header hlength hwords => ?_⟩
  · rintro s hreachable hrunning rfl rfl hfits now world
    exact NativeStack.ingressBatch_call_accepts hreachable.regular.1 hrunning hle hvalid htotal hfits now
      world
  · exact validIpv4Checksum_eq hlength (by omega)

/-- An IPv4 header without payload and a TCP segment over IPv6. -/
def mixedBatch : Term :=
  .list [.binary [0x45, 0, 0, 20, 0, 0, 0, 0, 64, 6, 0x66, 0xe2, 10, 0, 0, 2, 10, 0, 0, 1],
    .binary (Script.segment 4000 80 Script.syn)]

def scriptOverrides : Options.Overrides
  | some .bytesCopied => some (.integer 65575)
  | some .inputPackets => some (.integer 32)
  | some .sockets => some (.integer 16)
  | _ => none

theorem mixedBatch_accepted : validateIngress mixedBatch 1500 Script.limits = .ok 2 ∧
    ∃ packets : List Packet, packets.length = 2 ∧
      ∃ envelope, (Script.stack.call (.ingressBatch packets 0) {}).1 = .envelope envelope := by
  have hbatch : validateIngress mixedBatch 1500 Script.limits = .ok 2 := by decide +kernel
  have hoptions : Options.parse none (some (some scriptOverrides)) = .ok (1500, Script.limits) := by
    decide +kernel
  obtain ⟨⟨packets, -, hlength, -, htaken⟩, -⟩ := validateIngress_sufficient hoptions hbatch
  refine ⟨hbatch, packets, hlength, htaken Script.stack Script.reachable_stack ?_ ?_ ?_ ?_ 0 {}⟩
  · decide +kernel
  · decide +kernel
  · decide +kernel
  · decide +kernel

end Stack

end SmolNet
