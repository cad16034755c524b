import SmolNet.Framing

/-!
# Options of the `inet` adapters

The options that a `gen_tcp` or `gen_udp` socket can be given while it is open, and how a list of
settings is checked against them.  A message quota is positive, as `{:active, 0}` reads as `false`.
-/

namespace SmolNet.InetBackend

open Framing

/-- What an adapter answers with when an operation fails, as `translate_reason` spells it. -/
inductive Reason where
  | einval | emsgsize | busy | closed | timeout | badarg | notOwner | enotsup | enotconn | eisconn
  | enetdown | econnrefused | econnreset | etimedout | enetunreach | eaddrinuse | eaddrnotavail
  | eafnosupport | systemLimit | ealready | other
deriving DecidableEq, Repr

/-- The reasons that `SmolNet` calls fail with. -/
inductive LowReason where
  | connectionRefused | connectionReset | connectionTimeout | networkUnreachable | addressInUse
  | addressNotAvailable | ephemeralPortsExhausted | systemLimit | unsupportedFamily
  | unsupportedSocket | unsupportedTimeout | invalidOptions | notConnected | notBound
  | alreadyConnected | invalidHow | invalidAddress | invalidPort | invalidBacklog | scopeRequired
  | invalidScope | invalidSocketState | invalidSocket | stackDown | linkDown | closed | busy
  | timeout | messageTooLarge | other
deriving DecidableEq, Repr

def translateReason : LowReason → Reason
  | .connectionRefused => .econnrefused
  | .connectionReset => .econnreset
  | .connectionTimeout => .etimedout
  | .networkUnreachable => .enetunreach
  | .addressInUse => .eaddrinuse
  | .addressNotAvailable => .eaddrnotavail
  | .ephemeralPortsExhausted | .systemLimit => .systemLimit
  | .unsupportedFamily => .eafnosupport
  | .unsupportedSocket => .enotsup
  | .notConnected => .enotconn
  | .alreadyConnected => .eisconn
  | .unsupportedTimeout | .invalidOptions | .notBound | .invalidHow | .invalidAddress
  | .invalidPort | .invalidBacklog | .scopeRequired | .invalidScope | .invalidSocketState => .einval
  | .invalidSocket => .closed
  | .stackDown | .linkDown => .enetdown
  | .closed => .closed
  | .busy => .busy
  | .timeout => .timeout
  | .messageTooLarge | .other => .other

/-- A call into a stack that has gone reports `closed`, which is then not an end of stream. -/
def ioReason (stackGone : Bool) (reason : LowReason) : Reason :=
  if translateReason reason = .closed ∧ stackGone then .enetdown else translateReason reason

/-! ## Active mode -/

structure Quota where
  messages : Nat
  positive : 0 < messages
  bounded : messages ≤ 32767
deriving DecidableEq, Repr

inductive Active where
  | off | on | once
  | count (quota : Quota)
deriving DecidableEq, Repr

/-- The terms that can be given for `active`. -/
inductive ActiveTerm where
  | bool (value : Bool)
  | once
  | integer (value : Int)
  | other
deriving DecidableEq, Repr

def normalizeActive : ActiveTerm → Option Active
  | .bool false => some .off
  | .bool true => some .on
  | .once => some .once
  | .integer value =>
      if value = 0 then some .off
      else if h : 1 ≤ value ∧ value ≤ 32767 then some (.count ⟨value.toNat, by omega, by omega⟩)
      else none
  | .other => none

/-- What is left of `active` after one message, and whether the owner is told that it is used up. -/
def consumeActive : Active → Active × Bool
  | .off => (.off, false)
  | .on => (.on, false)
  | .once => (.off, false)
  | .count quota =>
      if h : quota.messages = 1 then (.off, true)
      else (.count ⟨quota.messages - 1, by have := quota.positive; omega, by have := quota.bounded; omega⟩, false)

/-! ## Options -/

inductive Mode where
  | binary | list
deriving DecidableEq, Repr

inductive Family where
  | inet | inet6
deriving DecidableEq, Repr

def defaultBuffer : Nat := 65536

theorem defaultBuffer_pos : 0 < defaultBuffer := by decide

def maxBuffer : Int := 1048576

def maxTimeout : Int := 4294967295

/-- The options that a running socket reads; `none` for `sendTimeout` is no timeout. -/
structure Options where
  family : Family
  active : Active
  mode : Mode
  packet : PacketOption
  packetSize : Nat
  packetSize_pos : 0 < packetSize
  buffer : Nat
  sendTimeout : Option Nat
  sendTimeoutClose : Bool
  nodelay : Bool
  keepalive : Bool
deriving DecidableEq, Repr

inductive PacketTerm where
  | integer (value : Int)
  | raw | line | other
deriving DecidableEq, Repr

def normalizePacket : PacketTerm → Option PacketOption
  | .integer value =>
      if value = 0 then some .raw else if value = 1 then some .one else if value = 2 then some .two
      else if value = 4 then some .four else none
  | .raw => some .raw
  | .line => some .line
  | .other => none

inductive TimeoutTerm where
  | infinity
  | integer (value : Int)
  | other
deriving DecidableEq, Repr

/-- The settings of a list of options; `other` is every term of another shape. -/
inductive Setting where
  | mode (mode : Mode)
  | active (value : ActiveTerm)
  | packet (value : PacketTerm)
  | packetSize (value : Int)
  | header (value : Int)
  | buffer (value : Int)
  | recbuf (value : Int)
  | nodelay (value : Bool)
  | keepalive (value : Bool)
  | sendTimeout (value : TimeoutTerm)
  | sendTimeoutClose (value : Bool)
  | ipv6V6only (value : Bool)
  | other
deriving DecidableEq, Repr

/-- A stream socket or a datagram socket that is already open. -/
inductive Context where
  | runtime | udpRuntime
deriving DecidableEq, Repr

def putPacketSize (options : Options) (value : Int) : Except Reason Options :=
  if h : 0 ≤ value ∧ value ≤ maxBuffer then
    if hzero : value = 0 then
      .ok { options with packetSize := defaultBuffer, packetSize_pos := defaultBuffer_pos }
    else .ok { options with packetSize := value.toNat, packetSize_pos := by omega }
  else .error .einval

def putBuffer (options : Options) (value : Int) : Except Reason Options :=
  if 1 ≤ value ∧ value ≤ maxBuffer then .ok { options with buffer := value.toNat } else .error .einval

def putSendTimeout (options : Options) : TimeoutTerm → Except Reason Options
  | .infinity => .ok { options with sendTimeout := none }
  | .integer value =>
      if 0 ≤ value ∧ value ≤ maxTimeout then .ok { options with sendTimeout := some value.toNat }
      else .error .einval
  | .other => .error .einval

def putOption (context : Context) (options : Options) : Setting → Except Reason Options
  | .mode mode => .ok { options with mode := mode }
  | .active value =>
      match normalizeActive value with
      | some active => .ok { options with active := active }
      | none => .error .einval
  | .buffer value => putBuffer options value
  | .packet value =>
      if context = .udpRuntime then .error .einval
      else
        match normalizePacket value with
        | some packet => .ok { options with packet := packet }
        | none => .error .einval
  | .packetSize value => if context = .udpRuntime then .error .einval else putPacketSize options value
  | .header value => if context = .runtime ∧ value = 0 then .ok options else .error .einval
  -- only a datagram socket takes `recbuf` once it is open, and takes it for `buffer`
  | .recbuf value => if context = .udpRuntime then putBuffer options value else .error .einval
  | .nodelay value =>
      if context = .runtime then .ok { options with nodelay := value } else .error .einval
  | .keepalive value =>
      if context = .runtime then .ok { options with keepalive := value } else .error .einval
  | .sendTimeout value =>
      if context = .udpRuntime then .error .einval else putSendTimeout options value
  | .sendTimeoutClose value =>
      if context = .udpRuntime then .error .einval
      else .ok { options with sendTimeoutClose := value }
  | .ipv6V6only value =>
      if context = .runtime ∧ options.family = .inet6 ∧ value then .ok options else .error .einval
  | .other => .error .einval

/-- The settings in turn, up to the first that is refused. -/
def update (context : Context) (options : Options) : List Setting → Except Reason Options
  | [] => .ok options
  | setting :: settings =>
      match putOption context options setting with
      | .ok updated => update context updated settings
      | .error reason => .error reason

def receiveLimit (options : Options) : Nat := max options.buffer (options.packetSize + 4)

/-! ## Which settings touch `active` -/

def Setting.isActive : Setting → Bool
  | .active _ => true
  | _ => false

theorem putBuffer_active {options updated : Options} {value : Int}
    (h : putBuffer options value = .ok updated) : updated.active = options.active := by
  unfold putBuffer at h
  split at h
  · obtain rfl := Except.ok.inj h
    rfl
  · cases h

theorem putPacketSize_active {options updated : Options} {value : Int}
    (h : putPacketSize options value = .ok updated) : updated.active = options.active := by
  unfold putPacketSize at h
  split at h
  · split at h
    · obtain rfl := Except.ok.inj h
      rfl
    · obtain rfl := Except.ok.inj h
      rfl
  · cases h

theorem putSendTimeout_active {options updated : Options} {value : TimeoutTerm}
    (h : putSendTimeout options value = .ok updated) : updated.active = options.active := by
  cases value with
  | infinity =>
      obtain rfl := Except.ok.inj h
      rfl
  | integer value =>
      simp only [putSendTimeout] at h
      split at h
      · obtain rfl := Except.ok.inj h
        rfl
      · cases h
  | other => cases h

theorem putOption_active {context : Context} {options updated : Options} {setting : Setting}
    (hsetting : setting.isActive = false) (h : putOption context options setting = .ok updated) :
    updated.active = options.active := by
  cases setting with
  | active value => cases hsetting
  | buffer value => exact putBuffer_active h
  | packetSize value =>
      simp only [putOption] at h
      split at h
      · cases h
      · exact putPacketSize_active h
  | recbuf value =>
      simp only [putOption] at h
      split at h
      · exact putBuffer_active h
      · cases h
  | sendTimeout value =>
      simp only [putOption] at h
      split at h
      · cases h
      · exact putSendTimeout_active h
  | packet value =>
      simp only [putOption] at h
      split at h
      · cases h
      · split at h
        · obtain rfl := Except.ok.inj h
          rfl
        · cases h
  | mode mode =>
      obtain rfl := Except.ok.inj h
      rfl
  | other => cases h
  | _ =>
      simp only [putOption] at h
      split at h
      all_goals cases h <;> rfl

/-- Settings that do not name `active` leave it as it is. -/
theorem update_active {context : Context} {options updated : Options} {settings : List Setting}
    (hsettings : settings.any Setting.isActive = false)
    (h : update context options settings = .ok updated) : updated.active = options.active := by
  induction settings generalizing options with
  | nil =>
      obtain rfl := Except.ok.inj h
      rfl
  | cons setting settings ih =>
      rw [List.any_cons, Bool.or_eq_false_iff] at hsettings
      unfold update at h
      split at h
      · rename_i hput
        rw [ih hsettings.2 h, putOption_active hsettings.1 hput]
      · cases h

end SmolNet.InetBackend
