import Pysnmp.Foundation.Framing
import Pysnmp.Proto.Types

/-!
# Messages on a stream

`decodeMessageLength` and `SnmpStreamProtocol.data_received` of `carrier/asyncio/stream/base.py`. A
read is added to the buffer, and every whole message at the head of the buffer is handed over; a
head that cannot be framed closes the connection, after which no more is read.

An SNMP message on a stream is a BER SEQUENCE of definite length (`IsMessage`). What the protocol
hands over is compared with the messages that the stream consists of, by `readAll_delivers`.
-/

set_option autoImplicit false
set_option relaxedAutoImplicit false

namespace Pysnmp.Carrier.StreamFraming

open Foundation.Framing Proto

/-- Why a stream cannot be framed. -/
inductive StreamFramingError
  | notSequence (identifier : UInt8)
  | indefiniteLength
  | reservedLength
  | tooLong (totalLength : ℕ)
  deriving DecidableEq, Repr

/-- `int.from_bytes(octets, "big")`. -/
def fromBytes (octets : Octets) : ℕ := octets.foldl (fun value octet ↦ 256 * value + octet.toNat) 0

/-- `decodeMessageLength`. -/
def decodeMessageLength (maxMessageSize : Option ℕ) :
    Octets → Except StreamFramingError (Option ℕ)
  | identifier :: lengthOctet :: octets =>
    if identifier ≠ 0x30 then
      .error (.notSequence identifier)
    else if lengthOctet < 0x80 then
      .ok (some (2 + lengthOctet.toNat))
    else if lengthOctet = 0x80 then
      .error .indefiniteLength
    else if lengthOctet = 0xff then
      .error .reservedLength
    else
      let countOfLengthOctets := (lengthOctet &&& 0x7f).toNat
      if octets.length < countOfLengthOctets then
        .ok none
      else
        let totalLength := 2 + countOfLengthOctets + fromBytes (octets.take countOfLengthOctets)
        if maxMessageSize.any (· < totalLength) then
          .error (.tooLong totalLength)
        else
          .ok (some totalLength)
  | _ => .ok none

/-- A connection: what is buffered, the messages handed to the carrier, and why the connection was
closed, if it was. -/
structure SnmpStreamProtocol where
  buffer : Octets
  received : List Octets
  failure : Option StreamFramingError
  deriving DecidableEq, Repr

/-- `SnmpStreamProtocol.data_received`. -/
def dataReceived (maxMessageSize : Option ℕ) (protocol : SnmpStreamProtocol) (data : Octets) :
    SnmpStreamProtocol :=
  let buffer := protocol.buffer ++ data
  let framed := takeMessages (decodeMessageLength maxMessageSize) (buffer.length + 1) buffer
  { buffer := framed.rest
    received := protocol.received ++ framed.messages
    failure := framed.failure }

/-- A read of the event loop, which reads no more from a connection that was closed. -/
def read (maxMessageSize : Option ℕ) (protocol : SnmpStreamProtocol) (data : Octets) :
    SnmpStreamProtocol :=
  if protocol.failure.isSome then protocol else dataReceived maxMessageSize protocol data

/-- A connection after some reads. -/
def readAll (maxMessageSize : Option ℕ) (reads : List Octets) : SnmpStreamProtocol :=
  reads.foldl (read maxMessageSize) { buffer := [], received := [], failure := none }

/-! ### Messages -/

/-- The length octets of a definite length: one octet below 128, or a count with that many octets
after it, which spell a total length within the limit. -/
inductive IsLength (maxMessageSize : Option ℕ) : Octets → ℕ → Prop
  | short {lengthOctet : UInt8} (hshort : lengthOctet < 0x80) :
      IsLength maxMessageSize [lengthOctet] lengthOctet.toNat
  | long {lengthOctet : UInt8} {octets : Octets} (hlong : 0x80 < lengthOctet)
      (hreserved : lengthOctet ≠ 0xff) (hcount : octets.length = (lengthOctet &&& 0x7f).toNat)
      (hlimit : ∀ limit ∈ maxMessageSize, 2 + octets.length + fromBytes octets ≤ limit) :
      IsLength maxMessageSize (lengthOctet :: octets) (fromBytes octets)

/-- A message: a BER SEQUENCE whose definite length is that of its body. -/
def IsMessage (maxMessageSize : Option ℕ) (message : Octets) : Prop :=
  ∃ lengthOctets body, IsLength maxMessageSize lengthOctets body.length ∧
    message = 0x30 :: lengthOctets ++ body

/-- No message begins the octets and none continues them. -/
def CannotBeFramed (maxMessageSize : Option ℕ) (octets : Octets) : Prop :=
  ∀ message, IsMessage maxMessageSize message → ¬ message <+: octets ∧ ¬ octets <+: message

/-- The octets are the beginning of a message, but not all of it. -/
def IsIncomplete (maxMessageSize : Option ℕ) (octets : Octets) : Prop :=
  ∃ message, IsMessage maxMessageSize message ∧ octets <+: message ∧ octets ≠ message

/-! ### What a measurement says -/

section Measurement

variable {maxMessageSize : Option ℕ} {octets lengthOctets : Octets} {length : ℕ}

/-- A head with its length octets is measured, whatever follows. -/
theorem decodeMessageLength_of_isLength (hlength : IsLength maxMessageSize lengthOctets length)
    (octets : Octets) :
    decodeMessageLength maxMessageSize (0x30 :: lengthOctets ++ octets) =
      .ok (some (1 + lengthOctets.length + length)) := by
  cases hlength with
  | @short lengthOctet hshort =>
    simp [decodeMessageLength, hshort]
  | @long lengthOctet counted hlong hreserved hcount hlimit =>
    have hshort : ¬ lengthOctet < 0x80 := UInt8.lt_asymm hlong
    have hindefinite : lengthOctet ≠ 0x80 := (UInt8.ne_of_lt hlong).symm
    have hwithin : maxMessageSize.any (· < 2 + counted.length + fromBytes counted) = false := by
      cases maxMessageSize with
      | none => rfl
      | some limit => simpa using hlimit limit rfl
    simp only [List.cons_append, decodeMessageLength, ne_eq, not_true_eq_false, if_false, hshort,
      hindefinite, hreserved, List.length_append, ← hcount, List.take_left, hwithin]
    rw [if_neg (by omega)]
    simp
    omega

/-- What is measured has a head with its length octets. -/
theorem exists_isLength_of_decodeMessageLength
    (hmeasure : decodeMessageLength maxMessageSize octets = .ok (some length)) :
    ∃ lengthOctets declared rest, IsLength maxMessageSize lengthOctets declared ∧
      octets = 0x30 :: lengthOctets ++ rest ∧ length = 1 + lengthOctets.length + declared := by
  rcases octets with _ | ⟨identifier, _ | ⟨lengthOctet, octets⟩⟩
  · cases hmeasure
  · cases hmeasure
  rw [decodeMessageLength] at hmeasure
  split_ifs at hmeasure with hidentifier hshort hindefinite hreserved
  · obtain rfl := Option.some.inj (Except.ok.inj hmeasure)
    exact ⟨[lengthOctet], lengthOctet.toNat, octets, .short hshort, by simp_all, by simp⟩
  · simp only at hmeasure
    split_ifs at hmeasure with hcount hlimit
    · cases hmeasure
    obtain rfl := Option.some.inj (Except.ok.inj hmeasure)
    have htake : (octets.take (lengthOctet &&& 0x7f).toNat).length =
        (lengthOctet &&& 0x7f).toNat := by
      rw [List.length_take]
      omega
    refine ⟨lengthOctet :: octets.take (lengthOctet &&& 0x7f).toNat, _,
      octets.drop (lengthOctet &&& 0x7f).toNat,
      .long (UInt8.lt_of_le_of_ne (UInt8.not_lt.mp hshort) (Ne.symm hindefinite)) hreserved htake
        ?_, ?_, ?_⟩
    · intro limit hmem
      rw [htake]
      obtain rfl := Option.mem_def.mp hmem
      simpa using hlimit
    · simp_all
    · rw [List.length_cons, htake]
      omega

/-- What cannot be framed cannot be framed later either. -/
theorem decodeMessageLength_append_of_error {exception : StreamFramingError} (data : Octets)
    (herror : decodeMessageLength maxMessageSize octets = .error exception) :
    decodeMessageLength maxMessageSize (octets ++ data) = .error exception := by
  rcases octets with _ | ⟨identifier, _ | ⟨lengthOctet, octets⟩⟩
  · cases herror
  · cases herror
  rw [List.cons_append, List.cons_append]
  rw [decodeMessageLength] at herror ⊢
  split_ifs at herror ⊢ with hidentifier hshort hindefinite hreserved
  · exact herror
  · exact herror
  · exact herror
  · simp only at herror ⊢
    split_ifs at herror with hcount hlimit
    rw [List.length_append, if_neg (by omega), List.take_append_of_le_length (not_lt.mp hcount),
      if_pos hlimit]
    exact herror

end Measurement

/-- The measurement of the messages on a stream. -/
def messageLength (maxMessageSize : Option ℕ) : Measure UInt8 StreamFramingError where
  measure := decodeMessageLength maxMessageSize
  length_pos := fun hmeasure ↦ by
    obtain ⟨_, _, _, -, -, rfl⟩ := exists_isLength_of_decodeMessageLength hmeasure
    omega
  stable_ok := fun data hmeasure ↦ by
    obtain ⟨lengthOctets, declared, rest, hlength, rfl, rfl⟩ :=
      exists_isLength_of_decodeMessageLength hmeasure
    rw [List.append_assoc]
    exact decodeMessageLength_of_isLength hlength _
  stable_error := decodeMessageLength_append_of_error

/-! ### Measured and whole -/

section Whole

variable {maxMessageSize : Option ℕ} {message octets rest : Octets} {messages : List Octets}
  {length : ℕ} {failure : Option StreamFramingError}

/-- A message is what is measured at its own length. -/
theorem isMessage_iff :
    IsMessage maxMessageSize message ↔
      decodeMessageLength maxMessageSize message = .ok (some message.length) := by
  constructor
  · rintro ⟨lengthOctets, body, hlength, rfl⟩
    rw [decodeMessageLength_of_isLength hlength, List.length_append, List.length_cons,
      Nat.add_comm lengthOctets.length]
  · intro hmeasure
    obtain ⟨lengthOctets, declared, body, hlength, rfl, htotal⟩ :=
      exists_isLength_of_decodeMessageLength hmeasure
    have hdeclared : declared = body.length := by
      rw [List.length_append, List.length_cons] at htotal
      omega
    exact ⟨lengthOctets, body, hdeclared ▸ hlength, rfl⟩

/-- A message is measured with what follows it. -/
theorem decodeMessageLength_append (hmessage : IsMessage maxMessageSize message)
    (data : Octets) :
    decodeMessageLength maxMessageSize (message ++ data) = .ok (some message.length) :=
  (messageLength maxMessageSize).stable_ok data (isMessage_iff.mp hmessage)

/-- What is taken off is a message. -/
theorem isMessage_take (hmeasure : decodeMessageLength maxMessageSize octets = .ok (some length))
    (hwhole : length ≤ octets.length) : IsMessage maxMessageSize (octets.take length) := by
  obtain ⟨lengthOctets, declared, body, hlength, rfl, rfl⟩ :=
    exists_isLength_of_decodeMessageLength hmeasure
  rw [List.length_append, List.length_cons] at hwhole
  have hdeclared : (body.take declared).length = declared := by
    rw [List.length_take]
    omega
  refine ⟨lengthOctets, body.take declared, hdeclared.symm ▸ hlength, ?_⟩
  rw [List.take_append, List.take_of_length_le (by simp; omega)]
  congr 2
  simp
  omega

/-- What is measured but not whole can be completed. -/
theorem isIncomplete_of_lt
    (hmeasure : decodeMessageLength maxMessageSize octets = .ok (some length))
    (hshorter : octets.length < length) : IsIncomplete maxMessageSize octets := by
  have hlength : (octets ++ List.replicate (length - octets.length) 0).length = length := by
    rw [List.length_append, List.length_replicate]
    omega
  refine ⟨octets ++ List.replicate (length - octets.length) 0, isMessage_iff.mpr ?_,
    List.prefix_append _ _, fun heq ↦ ?_⟩
  · rw [hlength]
    exact (messageLength maxMessageSize).stable_ok _ hmeasure
  · rw [← heq] at hlength
    omega

theorem cannotBeFramed_of_error {exception : StreamFramingError}
    (herror : decodeMessageLength maxMessageSize octets = .error exception) :
    CannotBeFramed maxMessageSize octets := by
  rintro message hmessage
  constructor
  · rintro ⟨data, rfl⟩
    rw [decodeMessageLength_append hmessage] at herror
    cases herror
  · rintro ⟨data, rfl⟩
    have hmeasure := isMessage_iff.mp hmessage
    rw [decodeMessageLength_append_of_error data herror] at hmeasure
    cases hmeasure

/-- What is not measured yet is the beginning of a message, or of none. -/
theorem cannotBeFramed_or_isIncomplete
    (hunmeasured : decodeMessageLength maxMessageSize octets = .ok none) :
    CannotBeFramed maxMessageSize octets ∨ IsIncomplete maxMessageSize octets := by
  rw [or_iff_not_imp_right]
  intro hcomplete message hmessage
  constructor
  · rintro ⟨data, rfl⟩
    rw [decodeMessageLength_append hmessage] at hunmeasured
    cases hunmeasured
  · intro hbegins
    refine hcomplete ⟨message, hmessage, hbegins, ?_⟩
    rintro rfl
    rw [isMessage_iff.mp hmessage] at hunmeasured
    cases hunmeasured

/-- What a stream consists of: messages, and a rest that cannot be framed or is not whole. -/
theorem isMessage_of_frames
    (hframes : Frames (messageLength maxMessageSize) octets messages rest failure) :
    (∀ message ∈ messages, IsMessage maxMessageSize message) ∧
      (CannotBeFramed maxMessageSize rest ∨
        IsIncomplete maxMessageSize rest ∧ failure = none) := by
  induction hframes with
  | failed herror => exact ⟨by simp, Or.inl (cannotBeFramed_of_error herror)⟩
  | unmeasured hunmeasured =>
    exact ⟨by simp, (cannotBeFramed_or_isIncomplete hunmeasured).imp_right fun h ↦ ⟨h, rfl⟩⟩
  | partial_ hmeasure hshorter =>
    exact ⟨by simp, Or.inr ⟨isIncomplete_of_lt hmeasure hshorter, rfl⟩⟩
  | message hmeasure hwhole _ ih =>
    exact ⟨List.forall_mem_cons.mpr ⟨isMessage_take hmeasure hwhole, ih.1⟩, ih.2⟩

/-- Messages in front of a stream are the first it consists of. -/
theorem frames_flatten_append {others : List Octets}
    (hmessages : ∀ message ∈ messages, IsMessage maxMessageSize message)
    (hframes : Frames (messageLength maxMessageSize) octets others rest failure) :
    Frames (messageLength maxMessageSize) (messages.flatten ++ octets) (messages ++ others) rest
      failure := by
  induction messages with
  | nil => exact hframes
  | cons message messages ih =>
    obtain ⟨hmessage, hmessages⟩ := List.forall_mem_cons.mp hmessages
    rw [List.flatten_cons, List.append_assoc]
    exact (ih hmessages).cons (decodeMessageLength_append hmessage _)

end Whole

/-! ### The reads -/

/-- However a stream was read, the messages handed over are those it consists of. -/
theorem readAll_frames (maxMessageSize : Option ℕ) (reads : List Octets) :
    ∃ rest, Frames (messageLength maxMessageSize) reads.flatten
        (readAll maxMessageSize reads).received rest (readAll maxMessageSize reads).failure ∧
      ((readAll maxMessageSize reads).failure = none →
        (readAll maxMessageSize reads).buffer = rest) := by
  induction reads using List.reverseRecOn with
  | nil => exact ⟨[], .unmeasured rfl, fun _ ↦ rfl⟩
  | append_singleton reads data ih =>
    obtain ⟨rest, hframes, hbuffer⟩ := ih
    have hreads : readAll maxMessageSize (reads ++ [data]) =
        read maxMessageSize (readAll maxMessageSize reads) data := List.foldl_append
    rw [hreads, read, List.flatten_append, List.flatten_singleton]
    cases hfailure : (readAll maxMessageSize reads).failure with
    | some exception =>
      rw [hfailure] at hframes
      rw [if_pos Option.isSome_some, hfailure]
      exact ⟨rest ++ data, hframes.append_of_failed data, fun hnone ↦ by cases hnone⟩
    | none =>
      rw [hfailure] at hframes
      obtain rfl := hbuffer hfailure
      exact ⟨_, hframes.append (frames_takeMessages (Nat.lt_succ_self _)), fun _ ↦ rfl⟩

/-- What a connection hands over of messages with further octets behind them: all of them, and
nothing from where the further octets cannot be framed; what it keeps is the message that is not
whole yet. -/
structure Delivers (maxMessageSize : Option ℕ) (messages : List Octets) (rest : Octets)
    (protocol : SnmpStreamProtocol) : Prop where
  of_cannotBeFramed : CannotBeFramed maxMessageSize rest → protocol.received = messages
  of_isIncomplete : IsIncomplete maxMessageSize rest →
    protocol.received = messages ∧ protocol.buffer = rest ∧ protocol.failure = none
  further : ∃ more remainder, rest = more.flatten ++ remainder ∧
    (∀ message ∈ more, IsMessage maxMessageSize message) ∧
    protocol.received = messages ++ more ∧
    (CannotBeFramed maxMessageSize remainder ∨ IsIncomplete maxMessageSize remainder ∧
      protocol.buffer = remainder ∧ protocol.failure = none)

/-- No message begins the beginning of another. -/
theorem not_isMessage_of_isIncomplete {maxMessageSize : Option ℕ} {message octets : Octets}
    (hincomplete : IsIncomplete maxMessageSize octets)
    (hmessage : IsMessage maxMessageSize message) : ¬ message <+: octets := by
  rintro ⟨data, rfl⟩
  obtain ⟨whole, hwhole, ⟨others, rfl⟩, hne⟩ := hincomplete
  have hlength := isMessage_iff.mp hwhole
  rw [List.append_assoc, decodeMessageLength_append hmessage, Except.ok.injEq, Option.some.injEq,
    List.length_append, List.length_append] at hlength
  have hothers : others = [] := List.eq_nil_of_length_eq_zero (by omega)
  exact hne (by rw [hothers, List.append_nil])

/-- However messages with further octets behind them are cut into reads, the same messages are
handed over, each once and in order. -/
theorem readAll_delivers (maxMessageSize : Option ℕ) (messages : List Octets) (rest : Octets)
    (hmessages : ∀ message ∈ messages, IsMessage maxMessageSize message) (reads : List Octets)
    (hreads : reads.flatten = messages.flatten ++ rest) :
    Delivers maxMessageSize messages rest (readAll maxMessageSize reads) ∧
      ∀ others : List Octets, others.flatten = reads.flatten →
        (readAll maxMessageSize others).received = (readAll maxMessageSize reads).received := by
  obtain ⟨remainder, hframes, hbuffer⟩ := readAll_frames maxMessageSize reads
  have hrest := @frames_takeMessages _ _ (messageLength maxMessageSize) rest _
    (Nat.lt_succ_self rest.length)
  set framed := takeMessages (messageLength maxMessageSize).measure (rest.length + 1) rest
  have hall := frames_flatten_append hmessages hrest
  rw [← hreads] at hall
  obtain ⟨hreceived, hremainder, hfailure⟩ := hframes.unique hall
  obtain ⟨hmore, hstopped⟩ := isMessage_of_frames hrest
  have hsplit := hrest.flatten_append
  rw [hremainder] at hbuffer
  rw [hfailure] at hbuffer
  have hnone : (∀ message, IsMessage maxMessageSize message → ¬ message <+: rest) →
      framed.messages = [] := by
    intro hbegins
    cases hcase : framed.messages with
    | nil => rfl
    | cons first more =>
      rw [hcase] at hmore hsplit
      refine absurd ?_ (hbegins first (hmore first List.mem_cons_self))
      rw [← hsplit, List.flatten_cons, List.append_assoc]
      exact List.prefix_append _ _
  refine ⟨⟨fun hcannot ↦ ?_, fun hincomplete ↦ ?_, framed.messages, framed.rest, hsplit.symm, hmore,
    hreceived, ?_⟩, fun others hothers ↦ ?_⟩
  · rw [hreceived, hnone fun message hmessage ↦ (hcannot message hmessage).1, List.append_nil]
  · have hmessagesNil := hnone fun message ↦ not_isMessage_of_isIncomplete hincomplete
    rw [hmessagesNil, List.flatten_nil, List.nil_append] at hsplit
    rw [hsplit] at hstopped hbuffer
    have hopen : framed.failure = none := by
      refine (hstopped.resolve_left fun hcannot ↦ ?_).2
      obtain ⟨whole, hwhole, hbegins, -⟩ := hincomplete
      exact (hcannot whole hwhole).2 hbegins
    rw [hreceived, hmessagesNil, List.append_nil]
    exact ⟨rfl, hbuffer hopen, hfailure.trans hopen⟩
  · rw [hfailure]
    exact hstopped.imp_right fun h ↦ ⟨h.1, hbuffer h.2, h.2⟩
  · obtain ⟨_, hotherFrames, -⟩ := readAll_frames maxMessageSize others
    rw [hothers] at hotherFrames
    exact (hotherFrames.unique hframes).1

theorem readAll_delivers_twoReads :
    Delivers (some 8192) [[0x30, 0x81, 0x01, 0x05], [0x30, 0x00]] [0x30, 0x02, 0x05]
        (readAll (some 8192) [[0x30, 0x81], [0x01, 0x05, 0x30, 0x00, 0x30, 0x02, 0x05]]) ∧
      ∀ others : List Octets,
        others.flatten =
            [[0x30, 0x81], [0x01, 0x05, 0x30, 0x00, 0x30, 0x02, 0x05]].flatten →
          (readAll (some 8192) others).received =
            (readAll (some 8192)
              [[0x30, 0x81], [0x01, 0x05, 0x30, 0x00, 0x30, 0x02, 0x05]]).received :=
  readAll_delivers (some 8192) [[0x30, 0x81, 0x01, 0x05], [0x30, 0x00]] [0x30, 0x02, 0x05]
    (List.forall_mem_cons.mpr ⟨isMessage_iff.mpr rfl,
      List.forall_mem_singleton.mpr (isMessage_iff.mpr rfl)⟩) _ rfl

end Pysnmp.Carrier.StreamFraming
