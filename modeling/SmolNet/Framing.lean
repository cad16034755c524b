import SmolNet.Endpoint

/-!
# Packets of the `gen_tcp` adapter

A stream is cut into packets by the `packet` option: as it comes, by lines, or by a length header of
one, two or four octets.  A packet that is taken off a buffer is a prefix of it, header included, and
what is framed for sending is taken off again as it was.
-/

namespace SmolNet

/-! ## Octets of a number -/

theorem bigEndian_append (octets : List UInt8) (octet : UInt8) :
    bigEndian (octets ++ [octet]) = bigEndian octets * 256 + octet.toNat := by
  simp [bigEndian]

theorem toOctets_succ (count n : Nat) :
    toOctets (count + 1) n = toOctets count (n / 256) ++ [UInt8.ofNat n] := by
  simp only [toOctets, List.range_succ_eq_map, List.reverse_cons, List.map_append, List.map_reverse,
    List.map_map, List.map_cons, List.map_nil, Nat.pow_zero, Nat.div_one]
  congr 2
  apply List.map_congr_left
  intro i _
  simp only [Function.comp_apply, Nat.pow_succ', Nat.div_div_eq_div_mul]

theorem length_toOctets (count n : Nat) : (toOctets count n).length = count := by
  simp [toOctets]

theorem bigEndian_toOctets {count n : Nat} (h : n < 256 ^ count) : bigEndian (toOctets count n) = n := by
  induction count generalizing n with
  | zero =>
      rw [Nat.pow_zero] at h
      obtain rfl : n = 0 := by omega
      rfl
  | succ count ih =>
      rw [Nat.pow_succ] at h
      rw [toOctets_succ, bigEndian_append, ih (by omega), UInt8.toNat_ofNat']
      omega

theorem toOctets_bigEndian (octets : List UInt8) : toOctets octets.length (bigEndian octets) = octets := by
  induction octets using List.reverseRecOn with
  | nil => rfl
  | append_singleton octets octet ih =>
      have hoctet := octet.toNat_lt
      rw [List.length_append, List.length_singleton, toOctets_succ, bigEndian_append,
        show (bigEndian octets * 256 + octet.toNat) / 256 = bigEndian octets by omega, ih]
      congr 2
      apply UInt8.toNat_inj.1
      rw [UInt8.toNat_ofNat']
      omega

/-! ## The `packet` option -/

namespace Framing

inductive PacketOption where
  | raw | line | one | two | four
deriving DecidableEq, Repr

/-- The octets of the length header. -/
def PacketOption.width : PacketOption → Nat
  | .raw | .line => 0
  | .one => 1
  | .two => 2
  | .four => 4

inductive FramingError where
  | emsgsize
deriving DecidableEq, Repr

def validateSize (payload : Packet) (packet : PacketOption) (packetSize : Nat) :
    Except FramingError Unit :=
  if packet = .raw then .ok ()
  else if packetSize < payload.length then .error .emsgsize
  else if packet = .one ∧ 255 < payload.length then .error .emsgsize
  else if packet = .two ∧ 65535 < payload.length then .error .emsgsize
  else .ok ()

/-- What a payload is on the wire. -/
def frame (payload : Packet) (packet : PacketOption) : Packet :=
  toOctets packet.width payload.length ++ payload

def encode (payload : Packet) (packet : PacketOption) (packetSize : Nat) : Except FramingError Packet := do
  validateSize payload packet packetSize
  return frame payload packet

inductive Extraction where
  | ok (packet rest : Packet)
  | more
  | error (error : FramingError)
deriving DecidableEq, Repr

def newline : UInt8 := 10

def extractLine (buffer : Packet) (packetSize : Nat) : Extraction :=
  match buffer.findIdx? (· == newline) with
  | some offset =>
      if offset + 1 ≤ packetSize then .ok (buffer.take (offset + 1)) (buffer.drop (offset + 1))
      else .error .emsgsize
  | none => if packetSize ≤ buffer.length then .error .emsgsize else .more

def extractFramed (buffer : Packet) (width packetSize : Nat) : Extraction :=
  if buffer.length < width then .more
  else
    let size := bigEndian (buffer.take width)
    let rest := buffer.drop width
    if packetSize < size then .error .emsgsize
    else if rest.length < size then .more
    else .ok (rest.take size) (rest.drop size)

/-- Takes one packet off the buffer; `length` is what a raw read asks for, `0` for whatever is there. -/
def extract (buffer : Packet) (packet : PacketOption) (length packetSize : Nat) : Extraction :=
  match packet with
  | .raw =>
      if length = 0 then if buffer = [] then .more else .ok buffer []
      else if length ≤ buffer.length then .ok (buffer.take length) (buffer.drop length)
      else .more
  | .line => extractLine buffer packetSize
  | .one | .two | .four => extractFramed buffer packet.width packetSize

/-! ## What is taken off -/

theorem extractLine_ok {buffer packet rest : Packet} {packetSize : Nat}
    (h : extractLine buffer packetSize = .ok packet rest) : buffer = packet ++ rest := by
  unfold extractLine at h
  split at h
  · split at h
    · obtain ⟨rfl, rfl⟩ := Extraction.ok.inj h
      rw [List.take_append_drop]
    · cases h
  · split at h
    · cases h
    · cases h

theorem extractFramed_ok {buffer packet rest : Packet} {width packetSize : Nat}
    (h : extractFramed buffer width packetSize = .ok packet rest) :
    buffer = toOctets width packet.length ++ packet ++ rest := by
  unfold extractFramed at h
  split at h
  · cases h
  · rename_i hheader
    dsimp only at h
    split at h
    · cases h
    · split at h
      · cases h
      · rename_i hsize
        obtain ⟨rfl, rfl⟩ := Extraction.ok.inj h
        have hlength : (buffer.take width).length = width := by
          rw [List.length_take]
          omega
        have hoctets := toOctets_bigEndian (buffer.take width)
        rw [hlength] at hoctets
        rw [List.append_assoc, List.take_append_drop, List.length_take,
          Nat.min_eq_left (by omega), hoctets, List.take_append_drop]

/-- A packet that is taken off stands at the head of the buffer, with its header. -/
theorem extract_ok {buffer packet rest : Packet} {option : PacketOption} {length packetSize : Nat}
    (h : extract buffer option length packetSize = .ok packet rest) :
    buffer = frame packet option ++ rest := by
  cases option with
  | raw =>
      simp only [extract] at h
      split at h
      · split at h
        · cases h
        · obtain ⟨rfl, rfl⟩ := Extraction.ok.inj h
          simp [frame, PacketOption.width, toOctets]
      · split at h
        · obtain ⟨rfl, rfl⟩ := Extraction.ok.inj h
          simp [frame, PacketOption.width, toOctets]
        · cases h
  | line =>
      rw [extractLine_ok h]
      simp [frame, PacketOption.width, toOctets]
  | one => exact extractFramed_ok h
  | two => exact extractFramed_ok h
  | four => exact extractFramed_ok h

/-- Nothing can be taken off an empty buffer. -/
theorem extract_nil (option : PacketOption) (length : Nat) {packetSize : Nat} (hsize : 0 < packetSize) :
    extract [] option length packetSize = .more := by
  cases option with
  | raw =>
      simp only [extract, List.length_nil, if_true]
      split
      · rfl
      · rw [if_neg (by omega)]
  | line =>
      simp [extract, extractLine]
      omega
  | one => rfl
  | two => rfl
  | four => rfl

/-! ## What is framed -/

theorem encode_size {payload framed : Packet} {option : PacketOption} {packetSize : Nat}
    (hoption : option ≠ .raw) (h : encode payload option packetSize = .ok framed) :
    payload.length ≤ packetSize ∧ (option = .one → payload.length ≤ 255) ∧
      (option = .two → payload.length ≤ 65535) := by
  unfold encode validateSize at h
  rw [if_neg hoption] at h
  split at h
  · cases h
  · rename_i hsize
    split at h
    · cases h
    · rename_i hone
      split at h
      · cases h
      · rename_i htwo
        refine ⟨by omega, ?_, ?_⟩
        · intro h1
          by_contra hlong
          exact hone ⟨h1, by omega⟩
        · intro h2
          by_contra hlong
          exact htwo ⟨h2, by omega⟩

/-- A frame whose length fits its header is taken off as it was put on. -/
theorem extractFramed_frame {payload : Packet} {width packetSize : Nat} (hsize : payload.length ≤ packetSize)
    (hwidth : payload.length < 256 ^ width) (rest : Packet) :
    extractFramed (toOctets width payload.length ++ payload ++ rest) width packetSize =
      .ok payload rest := by
  have hheader : (toOctets width payload.length ++ payload ++ rest).take width =
      toOctets width payload.length := by
    rw [List.append_assoc, List.take_left' (length_toOctets width payload.length)]
  have hrest : (toOctets width payload.length ++ payload ++ rest).drop width = payload ++ rest := by
    rw [List.append_assoc, List.drop_left' (length_toOctets width payload.length)]
  unfold extractFramed
  rw [if_neg (by simp [length_toOctets])]
  dsimp only
  rw [hheader, hrest, bigEndian_toOctets hwidth, if_neg (by omega), if_neg (by simp),
    List.take_left' rfl, List.drop_left' rfl]

/-- A line ends at its first newline. -/
theorem extractLine_line {line : Packet} {packetSize : Nat} (hline : newline ∉ line)
    (hsize : line.length + 1 ≤ packetSize) (rest : Packet) :
    extractLine (line ++ [newline] ++ rest) packetSize = .ok (line ++ [newline]) rest := by
  have hindex : (line ++ [newline] ++ rest).findIdx? (· == newline) = some line.length := by
    rw [List.append_assoc, List.findIdx?_append, List.findIdx?_eq_none_iff.2 (by
      intro octet hoctet
      simp only [beq_eq_false_iff_ne]
      rintro rfl
      exact hline hoctet)]
    simp [List.findIdx?_cons]
  have hlength : (line ++ [newline]).length = line.length + 1 := by simp
  unfold extractLine
  rw [hindex]
  dsimp only
  rw [if_pos hsize, List.take_left' hlength, List.drop_left' hlength]

/-! ## More bytes behind a buffer -/

/-- The same packet, or the same error, with more bytes left behind. -/
def Extraction.behind (more : Packet) : Extraction → Extraction
  | .ok packet rest => .ok packet (rest ++ more)
  | .more => .more
  | .error e => .error e

theorem extractLine_append {buffer : Packet} {packetSize : Nat} (more : Packet)
    (h : extractLine buffer packetSize ≠ .more) :
    extractLine (buffer ++ more) packetSize = (extractLine buffer packetSize).behind more := by
  unfold extractLine at h ⊢
  rw [List.findIdx?_append]
  cases hindex : buffer.findIdx? (· == newline) with
  | some offset =>
      have hlt : offset < buffer.length := (List.findIdx?_eq_some_iff_findIdx_eq.1 hindex).1
      dsimp only [Option.some_or]
      by_cases hsize : offset + 1 ≤ packetSize
      · rw [if_pos hsize, if_pos hsize, List.take_append_of_le_length (by omega),
          List.drop_append_of_le_length (by omega)]
        rfl
      · rw [if_neg hsize, if_neg hsize]
        rfl
  | none =>
      rw [hindex] at h
      dsimp only at h
      have hsize : packetSize ≤ buffer.length := by
        by_contra hshort
        exact h (if_neg hshort)
      -- the buffer is too long already, wherever a newline comes
      dsimp only
      rw [if_pos hsize, Option.none_or]
      cases more.findIdx? (· == newline) with
      | some offset =>
          dsimp only [Option.map_some]
          rw [if_neg (by omega)]
          rfl
      | none =>
          dsimp only [Option.map_none]
          rw [if_pos (by rw [List.length_append]; omega)]
          rfl

theorem extractFramed_append {buffer : Packet} {width packetSize : Nat} (more : Packet)
    (h : extractFramed buffer width packetSize ≠ .more) :
    extractFramed (buffer ++ more) width packetSize =
      (extractFramed buffer width packetSize).behind more := by
  have hheader : ¬ buffer.length < width := by
    intro hshort
    exact h (if_pos hshort)
  have hheader' : ¬ (buffer ++ more).length < width := by
    rw [List.length_append]
    omega
  unfold extractFramed at h ⊢
  rw [if_neg hheader] at h ⊢
  rw [if_neg hheader']
  dsimp only at h ⊢
  rw [List.take_append_of_le_length (by omega), List.drop_append_of_le_length (by omega)]
  by_cases hsize : packetSize < bigEndian (buffer.take width)
  · rw [if_pos hsize, if_pos hsize]
    rfl
  · rw [if_neg hsize] at h ⊢
    rw [if_neg hsize]
    have hrest : ¬ (buffer.drop width).length < bigEndian (buffer.take width) := by
      intro hshort
      exact h (if_pos hshort)
    have hrest' : ¬ (buffer.drop width ++ more).length < bigEndian (buffer.take width) := by
      rw [List.length_append]
      omega
    rw [if_neg hrest, if_neg hrest', List.take_append_of_le_length (by omega),
      List.drop_append_of_le_length (by omega)]
    rfl

/-- A packet, or an error, that stands in a buffer does not depend on what follows. -/
theorem extract_append {buffer : Packet} {option : PacketOption} (hoption : option ≠ .raw)
    {length packetSize : Nat} (more : Packet) (h : extract buffer option length packetSize ≠ .more) :
    extract (buffer ++ more) option length packetSize =
      (extract buffer option length packetSize).behind more := by
  cases option with
  | raw => exact absurd rfl hoption
  | line => exact extractLine_append more h
  | one => exact extractFramed_append more h
  | two => exact extractFramed_append more h
  | four => exact extractFramed_append more h

/-! ## Chunks of a stream -/

theorem length_frame (payload : Packet) (option : PacketOption) :
    (frame payload option).length = option.width + payload.length := by
  rw [frame, List.length_append, length_toOctets]

/-- Every packet that is taken off makes the buffer shorter. -/
theorem extract_shorter {buffer packet rest : Packet} {option : PacketOption} {length packetSize : Nat}
    (h : extract buffer option length packetSize = .ok packet rest) : rest.length < buffer.length := by
  have hbuffer := congrArg List.length (extract_ok h)
  rw [List.length_append, length_frame] at hbuffer
  cases option with
  | raw =>
      simp only [extract] at h
      split at h
      · split at h
        · cases h
        · rename_i hne
          obtain ⟨rfl, rfl⟩ := Extraction.ok.inj h
          exact List.length_pos_iff.2 hne
      · split at h
        · obtain ⟨rfl, rfl⟩ := Extraction.ok.inj h
          rw [List.length_drop]
          omega
        · cases h
  | line =>
      simp only [extract, extractLine] at h
      split at h
      · rename_i offset hindex
        have hlt := (List.findIdx?_eq_some_iff_findIdx_eq.1 hindex).1
        split at h
        · obtain ⟨rfl, rfl⟩ := Extraction.ok.inj h
          rw [List.length_drop]
          omega
        · cases h
      · split at h
        · cases h
        · cases h
  | one => simp only [PacketOption.width] at hbuffer; omega
  | two => simp only [PacketOption.width] at hbuffer; omega
  | four => simp only [PacketOption.width] at hbuffer; omega

/-- Takes packets off until there is no more, and what is left, or the error that ended it. -/
def drain (option : PacketOption) (length packetSize : Nat) (buffer : Packet) :
    List Packet × Except FramingError Packet :=
  match h : extract buffer option length packetSize with
  | .ok packet rest =>
      have := extract_shorter h
      (packet :: (drain option length packetSize rest).1, (drain option length packetSize rest).2)
  | .more => ([], .ok buffer)
  | .error e => ([], .error e)
termination_by buffer.length

/-- A reader that takes packets off after each chunk. -/
def feed (option : PacketOption) (length packetSize : Nat) (buffer : Packet) :
    List Packet → List Packet × Except FramingError Packet
  | [] => ([], .ok buffer)
  | chunk :: chunks =>
      match drain option length packetSize (buffer ++ chunk) with
      | (packets, .ok rest) =>
          (packets ++ (feed option length packetSize rest chunks).1,
            (feed option length packetSize rest chunks).2)
      | (packets, .error e) => (packets, .error e)

variable {option : PacketOption} {length packetSize : Nat} {buffer : Packet}

theorem drain_ok {packet rest : Packet} (h : extract buffer option length packetSize = .ok packet rest) :
    drain option length packetSize buffer =
      (packet :: (drain option length packetSize rest).1, (drain option length packetSize rest).2) := by
  rw [drain]
  split
  · rename_i packet' rest' h'
    obtain ⟨rfl, rfl⟩ := Extraction.ok.inj (h.symm.trans h')
    rfl
  · rename_i h'
    cases h.symm.trans h'
  · rename_i h'
    cases h.symm.trans h'

theorem drain_more (h : extract buffer option length packetSize = .more) :
    drain option length packetSize buffer = ([], .ok buffer) := by
  rw [drain]
  split
  · rename_i h'
    cases h.symm.trans h'
  · rfl
  · rename_i h'
    cases h.symm.trans h'

theorem drain_error {e : FramingError} (h : extract buffer option length packetSize = .error e) :
    drain option length packetSize buffer = ([], .error e) := by
  rw [drain]
  split
  · rename_i h'
    cases h.symm.trans h'
  · rename_i h'
    cases h.symm.trans h'
  · rename_i h'
    obtain rfl := Extraction.error.inj (h.symm.trans h')
    rfl

/-- What a reader does with a buffer is what it does with its beginning, and then with the rest. -/
theorem drain_append (hoption : option ≠ .raw) (more : Packet) {packets : List Packet}
    {outcome : Except FramingError Packet} (h : drain option length packetSize buffer = (packets, outcome)) :
    (∀ rest, outcome = .ok rest → extract rest option length packetSize = .more ∧
      drain option length packetSize (buffer ++ more) =
        (packets ++ (drain option length packetSize (rest ++ more)).1,
          (drain option length packetSize (rest ++ more)).2)) ∧
    ∀ e, outcome = .error e → drain option length packetSize (buffer ++ more) = (packets, .error e) := by
  induction hlength : buffer.length using Nat.strong_induction_on generalizing buffer packets with
  | _ n ih =>
      cases hextract : extract buffer option length packetSize with
      | ok packet rest =>
          have hshorter : rest.length < n := by
            rw [← hlength]
            exact extract_shorter hextract
          have hmore : extract (buffer ++ more) option length packetSize = .ok packet (rest ++ more) := by
            rw [extract_append hoption more (by rw [hextract]; simp), hextract]
            rfl
          rw [drain_ok hextract] at h
          obtain ⟨rfl, rfl⟩ := Prod.mk.inj h
          obtain ⟨hok, herror⟩ := ih rest.length hshorter
            (show drain option length packetSize rest = (_, _) from rfl) rfl
          rw [drain_ok hmore]
          constructor
          · intro left hleft
            obtain ⟨hstill, hdrain⟩ := hok left hleft
            rw [hdrain]
            exact ⟨hstill, rfl⟩
          · intro e he
            rw [herror e he]
      | more =>
          rw [drain_more hextract] at h
          obtain ⟨rfl, rfl⟩ := Prod.mk.inj h
          constructor
          · intro left hleft
            obtain rfl := Except.ok.inj hleft
            exact ⟨hextract, rfl⟩
          · intro e he
            cases he
      | error e =>
          have hmore : extract (buffer ++ more) option length packetSize = .error e := by
            rw [extract_append hoption more (by rw [hextract]; simp), hextract]
            rfl
          rw [drain_error hextract] at h
          obtain ⟨rfl, rfl⟩ := Prod.mk.inj h
          constructor
          · intro left hleft
            cases hleft
          · intro e' he
            obtain rfl := Except.error.inj he
            exact drain_error hmore

/-- How a stream is cut into chunks makes no difference. -/
theorem feed_eq_drain (hoption : option ≠ .raw) (chunks : List Packet)
    (h : extract buffer option length packetSize = .more) :
    feed option length packetSize buffer chunks =
      drain option length packetSize (buffer ++ chunks.flatten) := by
  induction chunks generalizing buffer with
  | nil =>
      rw [List.flatten_nil, List.append_nil, drain_more h]
      rfl
  | cons chunk chunks ih =>
      cases hdrain : drain option length packetSize (buffer ++ chunk) with
      | mk packets outcome =>
          obtain ⟨hok, herror⟩ := drain_append hoption chunks.flatten hdrain
          rw [List.flatten_cons, ← List.append_assoc, feed, hdrain]
          cases outcome with
          | ok rest =>
              obtain ⟨hstill, hall⟩ := hok rest rfl
              dsimp only
              rw [hall, ih hstill]
          | error e =>
              dsimp only
              rw [herror e rfl]

/-- A payload that a reader with the same option takes off as it was: its size fits, and a line ends
with its only newline. -/
structure Readable (option : PacketOption) (packetSize : Nat) (payload : Packet) : Prop where
  accepted : encode payload option packetSize = .ok (frame payload option)
  line : option = .line → payload.length ≤ packetSize ∧ ∃ body, payload = body ++ [newline] ∧ newline ∉ body

theorem extract_frame (length : Nat) (hoption : option ≠ .raw) {payload : Packet}
    (hfour : option = .four → payload.length < 2 ^ 32) (h : Readable option packetSize payload) (rest : Packet) :
    extract (frame payload option ++ rest) option length packetSize = .ok payload rest := by
  obtain ⟨hlimit, hone, htwo⟩ := encode_size hoption h.accepted
  cases option with
  | raw => exact absurd rfl hoption
  | line =>
      obtain ⟨hlength, body, rfl, hbody⟩ := h.line rfl
      have hframe : frame (body ++ [newline]) .line = body ++ [newline] := by
        simp [frame, PacketOption.width, toOctets]
      rw [hframe]
      exact extractLine_line hbody (by simpa using hlength) rest
  | one =>
      have hheader : payload.length < 256 ^ PacketOption.one.width := by
        have := hone rfl
        simp only [PacketOption.width]
        omega
      exact extractFramed_frame hlimit hheader rest
  | two =>
      have hheader : payload.length < 256 ^ PacketOption.two.width := by
        have := htwo rfl
        simp only [PacketOption.width]
        omega
      exact extractFramed_frame hlimit hheader rest
  | four => exact extractFramed_frame hlimit (hfour rfl) rest

theorem drain_frames (hoption : option ≠ .raw) (hpositive : 0 < packetSize) {payloads : List Packet}
    (hfour : option = .four → ∀ payload ∈ payloads, payload.length < 2 ^ 32)
    (h : ∀ payload ∈ payloads, Readable option packetSize payload) :
    drain option length packetSize (payloads.map (frame · option)).flatten = (payloads, .ok []) := by
  induction payloads with
  | nil => exact drain_more (extract_nil option length hpositive)
  | cons payload payloads ih =>
      have hfirst := extract_frame length hoption (fun hoption => hfour hoption payload List.mem_cons_self)
        (h payload List.mem_cons_self) (payloads.map (frame · option)).flatten
      have hrest := ih (fun hoption other hother => hfour hoption other (List.mem_cons_of_mem _ hother))
        fun other hother => h other (List.mem_cons_of_mem _ hother)
      rw [List.map_cons, List.flatten_cons, drain_ok hfirst, hrest]

/-- Framing does not depend on how the stream is cut, and undoes `encode`, as long as the payloads behind
a header of four octets have lengths that fit it. -/
theorem framing_chunked (length : Nat) (hoption : option ≠ .raw) (hpositive : 1 ≤ packetSize) :
    (∀ buffer more packet rest, extract buffer option length packetSize = .ok packet rest →
      extract (buffer ++ more) option length packetSize = .ok packet (rest ++ more) ∧
        buffer = toOctets option.width packet.length ++ packet ++ rest) ∧
    (∀ buffer more, extract buffer option length packetSize = .error .emsgsize →
      extract (buffer ++ more) option length packetSize = .error .emsgsize) ∧
    ∀ payloads chunks, (∀ payload ∈ payloads, Readable option packetSize payload) →
      (option = .four → ∀ payload ∈ payloads, payload.length < 2 ^ 32) →
      chunks.flatten = (payloads.map (frame · option)).flatten →
      feed option length packetSize [] chunks = (payloads, .ok []) := by
  refine ⟨?_, ?_, ?_⟩
  · intro buffer more packet rest h
    refine ⟨?_, extract_ok h⟩
    rw [extract_append hoption more (by rw [h]; simp), h]
    rfl
  · intro buffer more h
    rw [extract_append hoption more (by rw [h]; simp), h]
    rfl
  · intro payloads chunks hpayloads hfour hchunks
    rw [feed_eq_drain hoption chunks (extract_nil option length hpositive), List.nil_append, hchunks]
    exact drain_frames hoption hpositive hfour hpayloads

/-- Two frames that arrive an octet short and an octet late. -/
theorem framing_two_chunks :
    feed .four 0 (2 ^ 32) [] [[0, 0, 0, 2, 7], [8, 0, 0, 0, 1, 9]] = ([[7, 8], [9]], .ok []) := by
  apply (framing_chunked 0 (by decide) (by decide)).2.2 [[7, 8], [9]]
  · intro payload hpayload
    fin_cases hpayload <;> exact ⟨by decide, fun h => by cases h⟩
  · intro _ payload hpayload
    fin_cases hpayload <;> decide
  · decide

/-- A payload of `2 ^ 32` octets passes a larger `packet_size`, and its header reads as zero. -/
theorem framing_header_wraps : ∃ payload : Packet,
    encode payload .four (2 ^ 32) = .ok (frame payload .four) ∧
    feed .four 0 (2 ^ 32) [] [frame payload .four] ≠ ([payload], .ok []) := by
  have hlength : (List.replicate (2 ^ 32) (0 : UInt8)).length = 2 ^ 32 := List.length_replicate
  generalize List.replicate (2 ^ 32) (0 : UInt8) = payload at hlength
  refine ⟨payload, ?_, ?_⟩
  · unfold encode validateSize
    rw [if_neg (by decide), if_neg (by omega), if_neg (by simp), if_neg (by simp)]
    rfl
  · have hheader : frame payload .four = toOctets 4 ([] : Packet).length ++ [] ++ payload := by
      rw [frame, hlength]
      rfl
    have hextract : extract (frame payload .four) .four 0 (2 ^ 32) = .ok [] payload := by
      rw [hheader]
      exact extractFramed_frame (by simp) (by simp) payload
    rw [feed_eq_drain (by decide) _ (extract_nil _ _ (by decide)), List.nil_append, List.flatten_singleton,
      drain_ok hextract]
    intro h
    have hfirst := (List.cons.inj (Prod.mk.inj h).1).1
    rw [← hfirst] at hlength
    simp at hlength

/-! ## Streams whose frames fit -/

/-- A packet that a reader takes off whole: its length fits the header and the limit; a line ends with its
only newline. -/
def Fitting (option : PacketOption) (packetSize : Nat) (payload : Packet) : Prop :=
  match option with
  | .raw => True
  | .line => payload.length ≤ packetSize ∧ ∃ body, payload = body ++ [newline] ∧ newline ∉ body
  | .one | .two | .four => payload.length ≤ packetSize ∧ payload.length < 256 ^ option.width

theorem extract_fitting (hoption : option ≠ .raw) {payload : Packet} (h : Fitting option packetSize payload)
    (rest : Packet) : extract (frame payload option ++ rest) option length packetSize = .ok payload rest := by
  cases option with
  | raw => exact absurd rfl hoption
  | line =>
      obtain ⟨hlength, body, rfl, hbody⟩ := h
      have hframe : frame (body ++ [newline]) .line = body ++ [newline] := by
        simp [frame, PacketOption.width, toOctets]
      rw [hframe]
      exact extractLine_line hbody (by simpa using hlength) rest
  | one => exact extractFramed_frame h.1 h.2 rest
  | two => exact extractFramed_frame h.1 h.2 rest
  | four => exact extractFramed_frame h.1 h.2 rest

/-- The beginning of a stream of packets that fit; a raw stream has no frames. -/
def Fits (option : PacketOption) (packetSize : Nat) (stream : Packet) : Prop :=
  option ≠ .raw → ∃ (payloads : List Packet) (more : Packet),
    (∀ payload ∈ payloads, Fitting option packetSize payload) ∧ stream ++ more = payloads.flatMap (frame · option)

theorem Fits.of_append {stream rest : Packet} (h : Fits option packetSize (stream ++ rest)) :
    Fits option packetSize stream := by
  intro hoption
  obtain ⟨payloads, more, hpayloads, hstream⟩ := h hoption
  exact ⟨payloads, rest ++ more, hpayloads, by rw [← hstream, List.append_assoc]⟩

/-- What is taken off the head of such a stream is its first packet. -/
theorem Fits.extract (hpositive : 0 < packetSize) {ahead : Packet}
    (h : Fits option packetSize (buffer ++ ahead)) :
    (∀ e, extract buffer option length packetSize ≠ .error e) ∧
      ∀ packet rest, extract buffer option length packetSize = .ok packet rest →
        Fits option packetSize (rest ++ ahead) := by
  by_cases hraw : option = .raw
  · subst hraw
    refine ⟨?_, fun _ _ _ hoption => absurd rfl hoption⟩
    intro e he
    simp only [Framing.extract] at he
    split_ifs at he
  · obtain ⟨payloads, more, hpayloads, hstream⟩ := h hraw
    cases payloads with
    | nil =>
        have hempty : buffer = [] := by
          rw [List.flatMap_nil, List.append_eq_nil_iff, List.append_eq_nil_iff] at hstream
          exact hstream.1.1
        rw [hempty, extract_nil option length hpositive]
        exact ⟨by simp, by simp⟩
    | cons payload payloads =>
        have hfirst : Framing.extract (buffer ++ (ahead ++ more)) option length packetSize =
            .ok payload (payloads.flatMap (frame · option)) := by
          rw [← List.append_assoc, hstream, List.flatMap_cons]
          exact extract_fitting hraw (hpayloads payload List.mem_cons_self) _
        constructor
        · intro e he
          rw [extract_append hraw _ (by rw [he]; simp), he] at hfirst
          cases hfirst
        · intro packet rest hok _
          rw [extract_append hraw _ (by rw [hok]; simp), hok] at hfirst
          obtain ⟨-, hrest⟩ := Extraction.ok.inj hfirst
          refine ⟨payloads, more, fun other hother => hpayloads other (List.mem_cons_of_mem _ hother), ?_⟩
          rw [List.append_assoc]
          exact hrest

theorem extractFramed_more {width : Nat} (hpositive : 0 < packetSize)
    (h : extractFramed buffer width packetSize = .more) : buffer.length < packetSize + width := by
  unfold extractFramed at h
  split at h
  · omega
  · dsimp only at h
    split at h
    · cases h
    · split at h
      · rename_i hsize hrest
        rw [List.length_drop] at hrest
        omega
      · cases h

/-- A buffer that holds no packet yet has room for one. -/
theorem extract_more_length (hpositive : 0 < packetSize)
    (h : extract buffer option length packetSize = .more) :
    buffer.length < packetSize + 4 ∨ (option = .raw ∧ 0 < length ∧ buffer.length < length) := by
  cases option with
  | raw =>
      simp only [extract] at h
      split_ifs at h with hzero hempty hlength
      · left
        rw [hempty, List.length_nil]
        omega
      · exact .inr ⟨rfl, by omega, by omega⟩
  | line =>
      left
      simp only [extract, extractLine] at h
      split at h
      · split_ifs at h
      · split_ifs at h
        omega
  | one | two | four =>
      left
      have hlength := extractFramed_more hpositive h
      simp only [PacketOption.width] at hlength
      omega

end Framing

end SmolNet
