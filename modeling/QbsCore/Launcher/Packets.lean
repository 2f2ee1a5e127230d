import QbsCore.Library.ResumableParser
import QbsCore.Tools.DataStream
import QbsCore.Tools.Process

/-!
# Packets between the program and its launcher

A packet has a type, a token and data of its own.  Its size comes first, so that the receiver
knows when all of it has arrived.

Main results:

- Theorem {lit}`LauncherPackets.deserialize_serialize`: the fields of a packet survive.
- Theorem {lit}`LauncherPackets.received_of_sent`: the packets survive, however their bytes are
  cut into pieces.
-/

namespace Qbs

namespace LauncherPackets

open ByteReader DataStream

/-! ## Packets -/

inductive LauncherPacketType where
  | shutdown
  | startProcess
  | stopProcess
  | processError
  | processFinished
deriving DecidableEq

inductive ExitStatus where
  | normalExit
  | crashExit
deriving DecidableEq

structure StartProcessPacket where
  token : UInt64
  command : QString
  arguments : List QString
  workingDir : QString
  env : List QString
deriving DecidableEq

structure StopProcessPacket where
  token : UInt64
deriving DecidableEq

structure ProcessErrorPacket where
  token : UInt64
  error : ProcessError
  errorString : QString
deriving DecidableEq

structure ProcessFinishedPacket where
  token : UInt64
  errorString : QString
  stdOut : QByteArray
  stdErr : QByteArray
  exitStatus : ExitStatus
  error : ProcessError
  exitCode : Int32
deriving DecidableEq

inductive LauncherPacket where
  | shutdown
  | startProcess (p : StartProcessPacket)
  | stopProcess (p : StopProcessPacket)
  | processError (p : ProcessErrorPacket)
  | processFinished (p : ProcessFinishedPacket)
deriving DecidableEq

def LauncherPacket.type : LauncherPacket → LauncherPacketType
  | .shutdown => .shutdown
  | .startProcess _ => .startProcess
  | .stopProcess _ => .stopProcess
  | .processError _ => .processError
  | .processFinished _ => .processFinished

def LauncherPacket.token : LauncherPacket → UInt64
  | .shutdown => 0
  | .startProcess p => p.token
  | .stopProcess p => p.token
  | .processError p => p.token
  | .processFinished p => p.token

/-! ## Enumerations as bytes -/

def LauncherPacketType.toByte : LauncherPacketType → UInt8
  | .shutdown => 0
  | .startProcess => 1
  | .stopProcess => 2
  | .processError => 3
  | .processFinished => 4

def exitStatusByte : ExitStatus → UInt8
  | .normalExit => 0
  | .crashExit => 1

/-- A byte that is not the one of a status cannot be told from the last one. -/
def exitStatusOf (b : UInt8) : ExitStatus :=
  if b = 0 then .normalExit else .crashExit

def processErrorByte : ProcessError → UInt8
  | .failedToStart => 0
  | .crashed => 1
  | .timedout => 2
  | .readError => 3
  | .writeError => 4
  | .unknownError => 5

/-- A byte that is not the one of an error stands for an unknown error. -/
def processErrorOf (b : UInt8) : ProcessError :=
  if b = 0 then .failedToStart
  else if b = 1 then .crashed
  else if b = 2 then .timedout
  else if b = 3 then .readError
  else if b = 4 then .writeError
  else .unknownError

@[simp]
theorem exitStatusOf_byte (s : ExitStatus) : exitStatusOf (exitStatusByte s) = s := by
  cases s <;> decide

@[simp]
theorem processErrorOf_byte (e : ProcessError) : processErrorOf (processErrorByte e) = e := by
  cases e <;> decide

/-! ## Serialization -/

/-- The data of a packet without its size, type and token. -/
def doSerialize : LauncherPacket → List UInt8
  | .shutdown => []
  | .startProcess p =>
      writeString p.command ++ (writeStringList p.arguments ++ (writeString p.workingDir ++
        writeStringList p.env))
  | .stopProcess _ => []
  | .processError p => writeUInt8 (processErrorByte p.error) ++ writeString p.errorString
  | .processFinished p =>
      writeString p.errorString ++ (writeByteArray p.stdOut ++ (writeByteArray p.stdErr ++
        (writeUInt8 (exitStatusByte p.exitStatus) ++ (writeUInt8 (processErrorByte p.error) ++
          writeInt32 p.exitCode))))

/-- The number of bytes of the size field. -/
def sizeOfSize : ℕ :=
  4

/-- The size is written last, in place of a zero. -/
def serialize (p : LauncherPacket) : List UInt8 :=
  let data := writeInt32 0 ++ (writeUInt8 p.type.toByte ++ (writeUInt64 p.token ++ doSerialize p))
  writeInt32 (Int32.ofNat (data.length - sizeOfSize)) ++ data.drop sizeOfSize

def doDeserialize (token : UInt64) : LauncherPacketType → ByteReader LauncherPacket
  | .shutdown => pure .shutdown
  | .startProcess => do
      let command ← readString
      let arguments ← readStringList
      let workingDir ← readString
      let env ← readStringList
      pure (.startProcess ⟨token, command, arguments, workingDir, env⟩)
  | .stopProcess => pure (.stopProcess ⟨token⟩)
  | .processError => do
      let e ← readUInt8
      let errorString ← readString
      pure (.processError ⟨token, processErrorOf e, errorString⟩)
  | .processFinished => do
      let errorString ← readString
      let stdOut ← readByteArray
      let stdErr ← readByteArray
      let exitStatus ← readUInt8
      let error ← readUInt8
      let exitCode ← readInt32
      pure (.processFinished
        ⟨token, errorString, stdOut, stdErr, exitStatusOf exitStatus, processErrorOf error, exitCode⟩)

/-- The packet of a type that is made from received data. -/
def extractPacket (type : LauncherPacketType) (token : UInt64) (data : List UInt8) :
    Option LauncherPacket :=
  ((doDeserialize token type).run data).map Prod.fst

/-- The size of the data fits the size field. -/
def Fits (p : LauncherPacket) : Prop :=
  (serialize p).length - sizeOfSize < 2 ^ 31

theorem serialize_eq (p : LauncherPacket) :
    serialize p = writeInt32 (Int32.ofNat (9 + (doSerialize p).length)) ++
      (writeUInt8 p.type.toByte ++ (writeUInt64 p.token ++ doSerialize p)) := by
  have hdrop : ∀ rest, (writeInt32 0 ++ rest).drop sizeOfSize = rest := fun rest => by
    simp [writeInt32, sizeOfSize]
  simp only [serialize, hdrop]
  congr 3
  simp [writeInt32, writeUInt8, writeUInt64, sizeOfSize]
  omega

variable {p : LauncherPacket} {xs : List UInt8}

theorem Fits.length_lt (h : Fits p) :
    9 + (doSerialize p).length < 2 ^ 31 := by
  rw [Fits, serialize_eq] at h
  simp [writeInt32, writeUInt8, writeUInt64, sizeOfSize] at h
  omega

/-- All fields of a packet are read as they were written. -/
theorem reads_doSerialize (h : Fits p) :
    Reads (doDeserialize p.token p.type) (doSerialize p) p := by
  have hfits := h.length_lt
  have hnull : 2 ^ 31 < nullLength := by decide
  cases p with
  | shutdown => exact Reads.pure _
  | stopProcess p => exact Reads.pure _
  | startProcess p =>
      simp only [doSerialize, List.length_append] at hfits
      exact (reads_writeString (by omega)).bind ((reads_writeStringList (by omega)).bind
        ((reads_writeString (by omega)).bind ((reads_writeStringList (by omega)).bind_pure _)))
  | processError p =>
      simp only [doSerialize, List.length_append] at hfits
      refine (reads_writeUInt8 _).bind ?_
      simp only [processErrorOf_byte]
      exact (reads_writeString (by omega)).bind_pure _
  | processFinished p =>
      simp only [doSerialize, List.length_append] at hfits
      refine (reads_writeString (by omega)).bind ((reads_writeByteArray (by omega)).bind
        ((reads_writeByteArray (by omega)).bind ((reads_writeUInt8 _).bind
          ((reads_writeUInt8 _).bind ?_))))
      simp only [exitStatusOf_byte, processErrorOf_byte]
      exact (reads_writeInt32 p.exitCode).bind_pure _

/-- The packet that is made from the data of a packet is the packet itself. -/
theorem deserialize_serialize (h : Fits p) :
    extractPacket p.type p.token (doSerialize p) = some p := by
  have hread := reads_doSerialize h []
  rw [List.append_nil] at hread
  simp [extractPacket, hread]

/-! ## Parsing -/

/-- The size of the type and the token. -/
def commonPayloadSize : ℕ :=
  9

/-- The size of a packet includes its type and its token. -/
structure PacketSize where
  size : ℕ
  valid : commonPayloadSize ≤ size

/-- What the parser has found. -/
structure ReceivedPacket where
  type : UInt8
  token : UInt64
  packetData : List UInt8
deriving DecidableEq

/-- The size in a size field is not large enough. -/
structure InvalidPacketSizeException where
  size : Int

/-- The result of one call, and the size of the next packet if it is known. -/
abbrev Outcome :=
  ResumableParser.Outcome (Option PacketSize) UInt8 ReceivedPacket InvalidPacketSizeException

/-- Read a packet of a known size when all of it is there. -/
def parseBody (s : PacketSize) (available : List UInt8) : Outcome :=
  if available.length < s.size then .incomplete (some s) available
  else
    let packet := available.drop 1
    .item
      { type := UInt8.ofNat (ofBigEndian (available.take 1))
        token := UInt64.ofNat (ofBigEndian (packet.take 8))
        packetData := (packet.drop 8).take (s.size - commonPayloadSize) }
      none ((packet.drop 8).drop (s.size - commonPayloadSize))

/-- The size in a size field. -/
def sizeIn (available : List UInt8) : Int :=
  (UInt32.ofNat (ofBigEndian (available.take sizeOfSize))).toInt32.toInt

/-- The size of the next packet is kept until the packet is there. -/
def parse : Option PacketSize → List UInt8 → Outcome
  | some s, available => parseBody s available
  | none, available =>
      if available.length < sizeOfSize then .incomplete none available
      else if h : sizeIn available < commonPayloadSize then .error ⟨sizeIn available⟩
      else parseBody ⟨(sizeIn available).toNat, by omega⟩ (available.drop sizeOfSize)

theorem take_append_of_le {n : ℕ} (h : n ≤ xs.length) (ys : List UInt8) :
    (xs ++ ys).take n = xs.take n ∧ (xs ++ ys).drop n = xs.drop n ++ ys :=
  ⟨List.take_append_of_le_length h, List.drop_append_of_le_length h⟩

theorem sizeIn_append (h : sizeOfSize ≤ xs.length) (ys : List UInt8) :
    sizeIn (xs ++ ys) = sizeIn xs := by
  rw [sizeIn, (take_append_of_le h ys).1, sizeIn]

theorem parseBody_of_lt {s : PacketSize} (h : xs.length < s.size) :
    parseBody s xs = .incomplete (some s) xs :=
  if_pos h

theorem parseBody_of_le {s : PacketSize} (h : s.size ≤ xs.length) :
    parseBody s xs = .item
      { type := UInt8.ofNat (ofBigEndian (xs.take 1))
        token := UInt64.ofNat (ofBigEndian ((xs.drop 1).take 8))
        packetData := ((xs.drop 1).drop 8).take (s.size - commonPayloadSize) }
      none (((xs.drop 1).drop 8).drop (s.size - commonPayloadSize)) :=
  if_neg (not_lt.mpr h)

/-- A packet that is there is found in the same way when more data arrive. -/
theorem parseBody_append {s : PacketSize} (h : s.size ≤ xs.length) (ys : List UInt8) :
    ∃ packet rest, parseBody s xs = .item packet none rest ∧ rest.length < xs.length ∧
      parseBody s (xs ++ ys) = .item packet none (rest ++ ys) := by
  have hsize : 9 ≤ s.size := s.valid
  have hone := @take_append_of_le xs 1 (by omega) ys
  have htoken := @take_append_of_le (xs.drop 1) 8 (by simp; omega) ys
  have hdata := @take_append_of_le ((xs.drop 1).drop 8) (s.size - commonPayloadSize)
    (by simp [commonPayloadSize]; omega) ys
  refine ⟨_, _, parseBody_of_le h, ?_, ?_⟩
  · simp
    omega
  · rw [parseBody_of_le (by simp; omega)]
    simp only [hone.1, hone.2, htoken.1, htoken.2, hdata.1, hdata.2]

/-- What is known about the parts of the data that a call looks at. -/
theorem parse_cases (s : Option PacketSize) (xs : List UInt8) :
    (s = none ∧ xs.length < sizeOfSize ∧ parse s xs = .incomplete none xs) ∨
      (∃ e, parse s xs = .error e ∧ ∀ ys, parse s (xs ++ ys) = .error e) ∨
      ∃ size left, left.length ≤ xs.length ∧
        ∀ ys, parse s (xs ++ ys) = parseBody size (left ++ ys) := by
  cases s with
  | some size => exact .inr (.inr ⟨size, xs, le_refl _, fun ys => rfl⟩)
  | none =>
      by_cases hshort : xs.length < sizeOfSize
      · exact .inl ⟨rfl, hshort, by rw [parse, if_pos hshort]⟩
      have hlong : ∀ ys : List UInt8, ¬ (xs ++ ys).length < sizeOfSize := fun ys => by
        simp
        omega
      have hsizeIn := @sizeIn_append xs (by omega)
      by_cases hsize : sizeIn xs < commonPayloadSize
      · refine .inr (.inl ⟨⟨sizeIn xs⟩, by rw [parse, if_neg hshort, dif_pos hsize], fun ys => ?_⟩)
        rw [parse, if_neg (hlong ys), dif_pos (by rw [hsizeIn]; exact hsize), hsizeIn]
      · refine .inr (.inr ⟨⟨(sizeIn xs).toNat, by omega⟩, xs.drop sizeOfSize, by simp, fun ys => ?_⟩)
        rw [parse, if_neg (hlong ys), dif_neg (by rw [hsizeIn]; exact hsize),
          (take_append_of_le (by omega) ys).2]
        simp only [hsizeIn]

/-- The parser can be resumed at each byte. -/
def packetParser :
    ResumableParser (Option PacketSize) UInt8 ReceivedPacket InvalidPacketSizeException where
  parse := parse
  resumes := by
    intro s xs ys
    rcases parse_cases s xs with ⟨hnone, _, hwait⟩ | ⟨e, herror, happend⟩ | ⟨size, left, hle, hbody⟩
    · rw [hwait, hnone]
    · rw [herror]
      exact happend ys
    · have hnow := hbody []
      rw [List.append_nil, List.append_nil] at hnow
      rw [hnow]
      by_cases hlt : left.length < size.size
      · rw [parseBody_of_lt hlt]
        exact hbody ys
      · obtain ⟨_, _, hitem, hless, happend⟩ := parseBody_append (not_lt.mp hlt) ys
        rw [hitem]
        exact ⟨by omega, by rw [hbody ys, happend]⟩

theorem packetParser_parse : packetParser.parse = parse := by
  simp [packetParser]

/-! ## Packets that were sent -/

/-- What the receiver gets of a packet. -/
def received (p : LauncherPacket) : ReceivedPacket where
  type := p.type.toByte
  token := p.token
  packetData := doSerialize p

theorem sizeIn_serialize (h : Fits p) (rest : List UInt8) :
    sizeIn (serialize p ++ rest) = 9 + (doSerialize p).length := by
  have hlt := h.length_lt
  have htake : (serialize p ++ rest).take sizeOfSize =
      writeInt32 (Int32.ofNat (9 + (doSerialize p).length)) := by
    simp [serialize_eq, writeInt32, sizeOfSize]
  rw [sizeIn, htake, writeInt32, ofBigEndian_bigEndian (UInt32.toNat_lt _), UInt32.ofNat_toNat,
    Int32.toInt32_toUInt32, Int32.toInt_ofNat_of_lt hlt]
  simp

/-- A packet at the front of the data is found. -/
theorem parse_serialize (h : Fits p) (rest : List UInt8) :
    parse none (serialize p ++ rest) = .item (received p) none rest := by
  have hsize := sizeIn_serialize h rest
  have hbody : (serialize p ++ rest).drop sizeOfSize =
      writeUInt8 p.type.toByte ++ (writeUInt64 p.token ++ (doSerialize p ++ rest)) := by
    simp [serialize_eq, writeInt32, sizeOfSize]
  have hlength : (serialize p ++ rest).length = 13 + (doSerialize p).length + rest.length := by
    simp [serialize_eq, writeInt32, writeUInt8, writeUInt64]
    omega
  have htype : UInt8.ofNat (ofBigEndian (writeUInt8 p.type.toByte)) = p.type.toByte := by
    rw [writeUInt8, ofBigEndian_bigEndian (UInt8.toNat_lt _), UInt8.ofNat_toNat]
  have htoken : UInt64.ofNat (ofBigEndian (writeUInt64 p.token)) = p.token := by
    rw [writeUInt64, ofBigEndian_bigEndian (UInt64.toNat_lt _), UInt64.ofNat_toNat]
  have hone : (writeUInt8 p.type.toByte).length = 1 := length_bigEndian 1 _
  have height : (writeUInt64 p.token).length = 8 := length_bigEndian 8 _
  have hdata : (9 + ((doSerialize p).length : Int)).toNat - commonPayloadSize =
      (doSerialize p).length := by
    simp only [commonPayloadSize]
    omega
  rw [parse, if_neg (by simp only [sizeOfSize]; omega), dif_neg (by
    rw [hsize]; simp only [commonPayloadSize]; omega), parseBody, hbody, if_neg]
  · simp only [hsize, hdata, List.take_left' hone, List.drop_left' hone, List.take_left' height,
      List.drop_left' height, List.take_left, List.drop_left, htype, htoken, received]
  · simp only [hsize, List.length_append, hone, height]
    omega

/-- The type whose byte it is. -/
def packetTypeOf (b : UInt8) : Option LauncherPacketType :=
  if b = 0 then some .shutdown
  else if b = 1 then some .startProcess
  else if b = 2 then some .stopProcess
  else if b = 3 then some .processError
  else if b = 4 then some .processFinished
  else none

@[simp]
theorem packetTypeOf_toByte (type : LauncherPacketType) : packetTypeOf type.toByte = some type := by
  cases type <;> decide

/-- The packet that a receiver makes from what the parser has found. -/
def ReceivedPacket.extract (r : ReceivedPacket) : Option LauncherPacket := do
  let type ← packetTypeOf r.type
  extractPacket type r.token r.packetData

theorem extract_received (h : Fits p) : (received p).extract = some p := by
  simp [ReceivedPacket.extract, received, deserialize_serialize h]

/-- The packets that were sent are found in their order, however their bytes are cut into chunks,
and each of them has all its fields. -/
theorem received_of_sent {packets : List LauncherPacket} (h : ∀ p ∈ packets, Fits p)
    {chunks : List (List UInt8)} (hchunks : chunks.flatten = packets.flatMap serialize) :
    packetParser.feedAll none [] chunks = (packets.map received, .ok (none, [])) ∧
      ∀ p ∈ packets, (received p).type = p.type.toByte ∧ (received p).token = p.token ∧
        (received p).packetData = doSerialize p ∧ (received p).extract = some p := by
  have hempty : packetParser.parse none [] = .incomplete none [] := rfl
  have hwritten : ∀ p ∈ packets, ∀ rest,
      packetParser.parse none (serialize p ++ rest) = .item (received p) none rest := by
    intro p hp rest
    rw [packetParser_parse]
    exact parse_serialize (h p hp) rest
  refine ⟨?_, fun p hp => ⟨rfl, rfl, rfl, extract_received (h p hp)⟩⟩
  rw [ResumableParser.feedAll_eq hempty, List.nil_append, hchunks,
    ← List.append_nil (packets.flatMap serialize), ResumableParser.drain_flatMap hwritten,
    ResumableParser.drain_of_incomplete hempty]
  simp

/-- Packets that are cut in the middle of a size and in the middle of a token. -/
theorem received_of_sent_cut :
    let packets : List LauncherPacket :=
      [.stopProcess ⟨7⟩, .processError ⟨8, .crashed, some [65]⟩, .shutdown]
    let bytes := packets.flatMap serialize
    packetParser.feedAll none [] [bytes.take 2, (bytes.drop 2).take 8, bytes.drop 10] =
        (packets.map received, .ok (none, [])) ∧
      ∀ p ∈ packets, (received p).type = p.type.toByte ∧ (received p).token = p.token ∧
        (received p).packetData = doSerialize p ∧ (received p).extract = some p :=
  received_of_sent (by simp [Fits]; decide) (by decide)

end LauncherPackets

end Qbs
