import Mathlib.Algebra.Group.Int.Defs
import QbsCore.Library.Base64
import QbsCore.Library.Occurrences
import QbsCore.Library.ResumableParser

/-!
# Packets of a session

A program that drives a session sends JSON objects to it and gets JSON objects from it.  Each of
them is a text with a start marker, the length of the payload in decimal digits, a line break and
the payload.

Main results:

- Theorem {lit}`SessionPacket.packetsRead_of_sent`: the objects that were sent are received in their
  order, however their bytes are cut into chunks, and whatever comes between them.

Current gaps:

- JSON documents as text are a parameter.
-/

namespace Qbs

/-- What a JSON library does: objects as text, and the object of a text. The latter is empty if the
text is not that of an object. -/
structure JsonDocument (J : Type*) where
  toJson : J → List UInt8
  fromJson : List UInt8 → J

namespace SessionPacket

/-! ## Texts as bytes -/

/-- The bytes of a text in which each character is one of a single byte. -/
def toBytes (text : List Char) : List UInt8 :=
  text.map fun c => UInt8.ofNat c.toNat

/-- Each byte as a character. -/
def ofBytes (bytes : List UInt8) : List Char :=
  bytes.map fun b => Char.ofNat b.toNat

theorem ofBytes_toBytes {text : List Char} (h : ∀ c ∈ text, c.toNat < 128) :
    ofBytes (toBytes text) = text := by
  have hchar : ∀ c ∈ text, Char.ofNat (UInt8.ofNat c.toNat).toNat = c := fun c hc => by
    have hlt := h c hc
    rw [UInt8.toNat_ofNat', Nat.mod_eq_of_lt (by omega), Char.ofNat_toNat]
  rw [ofBytes, toBytes, List.map_map]
  exact (List.map_congr_left hchar).trans (List.map_id' text)

def toBase64 (bytes : List UInt8) : List UInt8 :=
  toBytes (Base64.encode bytes)

def fromBase64 (bytes : List UInt8) : List UInt8 :=
  Base64.decode (ofBytes bytes)

@[simp]
theorem fromBase64_toBase64 (bytes : List UInt8) : fromBase64 (toBase64 bytes) = bytes := by
  rw [fromBase64, toBase64, ofBytes_toBytes (Base64.toNat_lt_of_mem_encode bytes),
    Base64.decode_encode]

/-! ## Numbers -/

/-- The decimal digits of a number. -/
def number (n : ℕ) : List UInt8 :=
  toBytes (Nat.toDigits 10 n)

/-- The characters that are skipped before a number. -/
def isSpace (c : Char) : Bool :=
  c = ' ' || (9 ≤ c.toNat && c.toNat ≤ 13)

/-- There is at least one digit, and there are digits only. -/
def unsignedNumber (text : List Char) : Option ℕ :=
  if text ≠ [] ∧ text.all Char.isDigit then some (Nat.ofDigitChars 10 text 0) else none

def signedNumber : List Char → Option Int
  | '-' :: text => (unsignedNumber text).map fun n => -n
  | '+' :: text => (unsignedNumber text).map fun n => n
  | text => (unsignedNumber text).map fun n => n

/-- The number that a text stands for, if it fits a signed number of 32 bits. -/
def toInt (bytes : List UInt8) : Option Int :=
  (signedNumber ((ofBytes bytes).dropWhile isSpace)).filter fun i => -2 ^ 31 ≤ i ∧ i < 2 ^ 31

theorem isDigit_toNat {c : Char} (h : c.isDigit = true) : 48 ≤ c.toNat ∧ c.toNat ≤ 57 := by
  simpa [Char.isDigit, UInt32.le_iff_toNat_le, ← Char.toNat_val] using h

/-- A text that begins with a digit has no sign. -/
theorem signedNumber_of_isDigit {c : Char} (h : c.isDigit = true) (text : List Char) :
    signedNumber (c :: text) = (unsignedNumber (c :: text)).map fun n => (n : Int) := by
  have hminus : c ≠ '-' := fun hc => by simp [hc] at h
  have hplus : c ≠ '+' := fun hc => by simp [hc] at h
  simp [signedNumber, hminus, hplus]

theorem unsignedNumber_toDigits (n : ℕ) : unsignedNumber (Nat.toDigits 10 n) = some n := by
  have hdigits : ∀ c ∈ Nat.toDigits 10 n, c.isDigit = true := fun c hc =>
    Nat.isDigit_of_mem_toDigits (by omega) (by omega) hc
  rw [unsignedNumber, if_pos ⟨Nat.toDigits_ne_nil, by simpa using hdigits⟩,
    Nat.ofDigitChars_toDigits (by omega) (by omega)]

/-- The digits of a number are read as the number. -/
theorem toInt_number {n : ℕ} (h : n < 2 ^ 31) : toInt (number n) = some (n : Int) := by
  have hdigits : ∀ c ∈ Nat.toDigits 10 n, c.isDigit = true := fun c hc =>
    Nat.isDigit_of_mem_toDigits (by omega) (by omega) hc
  have hread : ofBytes (number n) = Nat.toDigits 10 n := ofBytes_toBytes fun c hc => by
    have hbounds := isDigit_toNat (hdigits c hc)
    omega
  have hvalue := unsignedNumber_toDigits n
  rw [toInt, hread]
  obtain ⟨c, text, htext⟩ := List.exists_cons_of_ne_nil (Nat.toDigits_ne_nil (b := 10) (n := n))
  rw [htext] at hdigits hvalue ⊢
  have hc := hdigits c (by simp)
  have hbounds := isDigit_toNat hc
  have hspace : isSpace c = false := by
    have hne : c ≠ ' ' := fun heq => by simp [heq] at hbounds
    simp [isSpace, hne]
    omega
  rw [List.dropWhile_cons_of_neg (by simp [hspace]), signedNumber_of_isDigit hc, hvalue]
  simp [Option.filter]
  omega

/-! ## Parsing -/

def packetStart : List UInt8 :=
  toBytes "qbsmsg:".toList

def newLine : UInt8 :=
  10

/-- The text between the first marker and the line break after it, and what comes after them. -/
def header (input : List UInt8) : Option (List UInt8 × List UInt8) := do
  let packetStartOffset ← Occurrences.indexOf packetStart input
  let numberOffset := packetStartOffset + packetStart.length
  let sizeLength ← Occurrences.indexOf [newLine] (input.drop numberOffset)
  some ((input.drop numberOffset).take sizeLength, input.drop (numberOffset + sizeLength + 1))

/-- The part of a payload that has arrived. -/
structure PartialPayload where
  payload : List UInt8
  expectedPayloadLength : ℕ
  incomplete : payload.length < expectedPayloadLength

variable {J : Type*} (json : JsonDocument J)

/-- The packet with a complete payload. -/
def retrievePacket (payload : List UInt8) : J :=
  json.fromJson (fromBase64 payload)

/-- The input is invalid if the size is not a number. -/
inductive InvalidInput where
  | invalid

abbrev Outcome (J : Type*) :=
  ResumableParser.Outcome (Option PartialPayload) UInt8 J InvalidInput

/-- Add what is missing from the payload, as far as it is there. -/
def addPayload (payload : List UInt8) (expectedPayloadLength : ℕ) (input : List UInt8) :
    Outcome J :=
  let bytesToAdd := expectedPayloadLength - payload.length
  let added := payload ++ input.take bytesToAdd
  if h : added.length < expectedPayloadLength then
    .incomplete (some ⟨added, expectedPayloadLength, h⟩) (input.drop bytesToAdd)
  else .item (retrievePacket json added) none (input.drop bytesToAdd)

/-- The payload is empty as long as its length is not known. -/
def parseInput : Option PartialPayload → List UInt8 → Outcome J
  | some p, input => addPayload json p.payload p.expectedPayloadLength input
  | none, input =>
      match header input with
      | none => .incomplete none input
      | some (sizeString, payload) =>
          match toInt sizeString with
          | none => .error .invalid
          | some payloadLen =>
              if payloadLen < 0 then .error .invalid
              else addPayload json [] payloadLen.toNat payload

variable {input payload : List UInt8}

theorem header_eq_some {sizeString : List UInt8} :
    header input = some (sizeString, payload) ↔
      ∃ start, Occurrences.indexOf packetStart input = some start ∧
        ∃ length, Occurrences.indexOf [newLine] (input.drop (start + packetStart.length)) =
            some length ∧
          (input.drop (start + packetStart.length)).take length = sizeString ∧
          input.drop (start + packetStart.length + length + 1) = payload := by
  simp [header, Option.bind_eq_some_iff]

/-- A header that is there stays the first one. -/
theorem header_append {sizeString : List UInt8} (h : header input = some (sizeString, payload))
    (ys : List UInt8) :
    payload.length < input.length ∧ header (input ++ ys) = some (sizeString, payload ++ ys) := by
  obtain ⟨start, hstart, length, hlength, rfl, rfl⟩ := header_eq_some.mp h
  have hmarker := Occurrences.length_of_indexOf hstart
  have hline := Occurrences.length_of_indexOf hlength
  simp only [List.length_drop, List.length_singleton] at hline
  have hdrop : (input ++ ys).drop (start + packetStart.length) =
      input.drop (start + packetStart.length) ++ ys := List.drop_append_of_le_length hmarker
  refine ⟨by simp only [List.length_drop]; omega,
    header_eq_some.mpr ⟨start, Occurrences.indexOf_append hstart ys, length, ?_, ?_, ?_⟩⟩
  · rw [hdrop]
    exact Occurrences.indexOf_append hlength ys
  · rw [hdrop, List.take_append_of_le_length (by simp only [List.length_drop]; omega)]
  · rw [List.drop_append_of_le_length (by omega)]

theorem addPayload_of_lt {n : ℕ} (h : payload.length + input.length < n) :
    addPayload json payload n input =
      .incomplete (some ⟨payload ++ input, n, by simpa using h⟩) [] := by
  have htake : input.take (n - payload.length) = input := List.take_of_length_le (by omega)
  have hdrop : input.drop (n - payload.length) = [] := List.drop_of_length_le (by omega)
  simp [addPayload, htake, hdrop, h]

theorem addPayload_of_le {n : ℕ} (hpayload : payload.length ≤ n)
    (h : n ≤ payload.length + input.length) :
    addPayload json payload n input =
      .item (retrievePacket json (payload ++ input.take (n - payload.length))) none
        (input.drop (n - payload.length)) := by
  rw [addPayload, dif_neg]
  simp
  omega

/-- What is added in two steps can be added in one. -/
theorem addPayload_append {n : ℕ} (hpayload : payload.length ≤ n) (input ys : List UInt8) :
    match addPayload json payload n input with
    | .incomplete s' rest =>
        addPayload json payload n (input ++ ys) = parseInput json s' (rest ++ ys)
    | .item b s' rest => rest.length + (n - payload.length) = input.length ∧
        addPayload json payload n (input ++ ys) = .item b s' (rest ++ ys)
    | .error _ => False := by
  by_cases hlt : payload.length + input.length < n
  · rw [addPayload_of_lt json hlt]
    have hleft : n - payload.length - input.length = n - (payload.length + input.length) := by
      omega
    have htake : (input ++ ys).take (n - payload.length) =
        input ++ ys.take (n - (payload.length + input.length)) := by
      rw [List.take_append, List.take_of_length_le (by omega), hleft]
    have hdrop : (input ++ ys).drop (n - payload.length) =
        ys.drop (n - (payload.length + input.length)) := by
      rw [List.drop_append, List.drop_of_length_le (by omega), hleft, List.nil_append]
    simp [parseInput, addPayload, htake, hdrop]
  · have hle := not_lt.mp hlt
    rw [addPayload_of_le json hpayload hle,
      addPayload_of_le json hpayload (by simp; omega),
      List.take_append_of_le_length (by omega), List.drop_append_of_le_length (by omega)]
    exact ⟨by simp; omega, rfl⟩

/-- The objects can be read from chunks. -/
def packetReader : ResumableParser (Option PartialPayload) UInt8 J InvalidInput where
  parse := parseInput json
  resumes := by
    intro s xs ys
    cases s with
    | some p =>
        have happend := addPayload_append json p.incomplete.le xs ys
        have hmissing := p.incomplete
        cases hadded : addPayload json p.payload p.expectedPayloadLength xs with
        | incomplete s' rest => simpa [parseInput, hadded] using happend
        | item b s' rest =>
            rw [hadded] at happend
            simp only [parseInput, hadded]
            exact ⟨by omega, happend.2⟩
        | error e => simp [hadded] at happend
    | none =>
        cases hheader : header xs with
        | none => simp [parseInput, hheader]
        | some found =>
            obtain ⟨hshorter, hlonger⟩ := header_append hheader ys
            cases hsize : toInt found.1 with
            | none => simp [parseInput, hheader, hlonger, hsize]
            | some payloadLen =>
                by_cases hneg : payloadLen < 0
                · simp [parseInput, hheader, hlonger, hsize, hneg]
                · have happend := @addPayload_append J json [] payloadLen.toNat (by simp) found.2 ys
                  simp only [parseInput, hheader, hlonger, hsize, hneg, if_false]
                  cases hadded : addPayload json [] payloadLen.toNat found.2 with
                  | incomplete s' rest => simpa [hadded, parseInput] using happend
                  | item b s' rest =>
                      rw [hadded] at happend
                      exact ⟨by omega, happend.2⟩
                  | error e => simp [hadded] at happend

/-! ## Packets that were sent -/

def createPacket (packet : J) : List UInt8 :=
  let jsonData := toBase64 (json.toJson packet)
  packetStart ++ (number jsonData.length ++ (newLine :: jsonData))

/-- An object that is sent after something that is not a packet.  The size of a byte array is a
number of 31 bits. -/
structure Sent where
  noise : List UInt8
  packet : J
  noise_free : ¬ packetStart <:+: noise
  fits : (createPacket json packet).length < 2 ^ 31

variable {json}

/-- What arrives for an object. -/
def Sent.bytes (s : Sent json) : List UInt8 :=
  s.noise ++ createPacket json s.packet

theorem newLine_not_infix_number (n : ℕ) : ¬ [newLine] <:+: number n := by
  rw [List.singleton_infix_iff]
  intro hmem
  obtain ⟨c, hc, hnewLine⟩ := List.mem_map.mp hmem
  have hbounds := isDigit_toNat (Nat.isDigit_of_mem_toDigits (by omega) (by omega) hc)
  have htoNat := congrArg UInt8.toNat hnewLine
  rw [UInt8.toNat_ofNat', Nat.mod_eq_of_lt (by omega)] at htoNat
  have hten : newLine.toNat = 10 := by decide
  omega

/-- The marker is found in spite of what comes before it. -/
theorem indexOf_packetStart {noise : List UInt8} (hfree : ¬ packetStart <:+: noise)
    (rest : List UInt8) :
    Occurrences.indexOf packetStart (noise ++ (packetStart ++ rest)) = some noise.length := by
  have hmarker : packetStart = 113 :: [98, 115, 109, 115, 103, 58] := by decide
  rw [hmarker] at hfree ⊢
  exact Occurrences.indexOf_of_free (by decide) hfree rest

theorem header_bytes (s : Sent json) (rest : List UInt8) :
    header (s.bytes ++ rest) = some (number (toBase64 (json.toJson s.packet)).length,
      toBase64 (json.toJson s.packet) ++ rest) := by
  let jsonData := toBase64 (json.toJson s.packet)
  let size := number jsonData.length
  have hbytes : s.bytes ++ rest =
      s.noise ++ (packetStart ++ (size ++ ([newLine] ++ (jsonData ++ rest)))) := by
    simp [Sent.bytes, createPacket, jsonData, size]
  have hdrop : (s.bytes ++ rest).drop (s.noise.length + packetStart.length) =
      size ++ ([newLine] ++ (jsonData ++ rest)) := by
    simp [hbytes, ← List.drop_drop]
  have hline := Occurrences.indexOf_of_free (m := newLine) (l := []) (by simp)
    (newLine_not_infix_number jsonData.length) (jsonData ++ rest)
  refine header_eq_some.mpr ⟨s.noise.length, ?_, size.length, ?_, ?_, ?_⟩
  · rw [hbytes]
    exact indexOf_packetStart s.noise_free _
  · rw [hdrop]
    exact hline
  · rw [hdrop, List.take_left]
  · rw [Nat.add_assoc, ← List.drop_drop, hdrop, ← List.drop_drop, List.drop_left]
    simp [jsonData]

/-- The object is found behind what comes before its packet. -/
theorem parseInput_bytes (s : Sent json) (rest : List UInt8) :
    (packetReader json).parse none (s.bytes ++ rest) =
      .item (json.fromJson (json.toJson s.packet)) none rest := by
  have hfits : (toBase64 (json.toJson s.packet)).length < 2 ^ 31 := by
    have hsize := s.fits
    simp only [createPacket, List.length_append, List.length_cons] at hsize
    omega
  have hcomplete : addPayload json [] (toBase64 (json.toJson s.packet)).length
      (toBase64 (json.toJson s.packet) ++ rest) =
        .item (json.fromJson (json.toJson s.packet)) none rest := by
    rw [addPayload_of_le json (by simp) (by simp)]
    simp [retrievePacket]
  change parseInput json none (s.bytes ++ rest) = _
  rw [parseInput, header_bytes]
  simp only [toInt_number hfits]
  rw [if_neg (by omega), Int.toNat_natCast, hcomplete]

/-- The objects that were sent are read in their order and without an error, however their bytes
are cut into chunks and whatever comes between them. Where the bytes end in a packet, or before
it, there are the objects before it. -/
theorem packetsRead_of_sent {sent : List (Sent json)}
    (hjson : ∀ s ∈ sent, json.fromJson (json.toJson s.packet) = s.packet) :
    (∀ chunks : List (List UInt8), chunks.flatten = sent.flatMap Sent.bytes →
      (packetReader json).feedAll none [] chunks = (sent.map Sent.packet, .ok (none, []))) ∧
      ∀ (next : Sent json) (tail missing : List UInt8) (chunks : List (List UInt8)),
        tail ++ missing = next.bytes → missing ≠ [] →
        chunks.flatten = sent.flatMap Sent.bytes ++ tail →
        ∃ left, (packetReader json).feedAll none [] chunks =
          (sent.map Sent.packet, .ok left) := by
  have hempty : (packetReader json).parse none [] = .incomplete none [] := rfl
  have hwritten : ∀ s ∈ sent, ∀ rest, (packetReader json).parse none (s.bytes ++ rest) =
      .item s.packet none rest := fun s hs rest => by
    rw [parseInput_bytes, hjson s hs]
  refine ⟨fun chunks hchunks => ?_, fun next tail missing chunks htail hmissing hchunks => ?_⟩
  · rw [ResumableParser.feedAll_eq hempty, List.nil_append, hchunks,
      ← List.append_nil (sent.flatMap Sent.bytes), ResumableParser.drain_flatMap hwritten,
      ResumableParser.drain_of_incomplete hempty]
    simp
  · have hnext := parseInput_bytes next []
    rw [List.append_nil, ← htail] at hnext
    obtain ⟨left, hleft⟩ := ResumableParser.drain_of_cut hmissing hnext
    refine ⟨left, ?_⟩
    rw [ResumableParser.feedAll_eq hempty, List.nil_append, hchunks,
      ResumableParser.drain_flatMap hwritten, hleft]
    simp

/-- An object with nothing in it or with a single flag. -/
def flagDocument : JsonDocument (Option Bool) where
  toJson
    | none => toBytes "\x7b\x7d".toList
    | some true => toBytes "\x7b\"ok\":true\x7d".toList
    | some false => toBytes "\x7b\"ok\":false\x7d".toList
  fromJson text :=
    if text = toBytes "\x7b\"ok\":true\x7d".toList then some true
    else if text = toBytes "\x7b\"ok\":false\x7d".toList then some false
    else none

/-- Two packets behind a part of a marker and a line break, cut in the marker and in the payload. -/
theorem packetsRead_of_sent_flags :
    let first : Sent flagDocument :=
      ⟨toBytes "qbsm".toList, some true, by decide +kernel, by decide +kernel⟩
    let second : Sent flagDocument := ⟨[newLine], none, by decide +kernel, by decide +kernel⟩
    let bytes := first.bytes ++ second.bytes
    (packetReader flagDocument).feedAll none [] [bytes.take 6, (bytes.drop 6).take 14,
      bytes.drop 20] = ([some true, none], .ok (none, [])) := by
  intro first second bytes
  have hjson : ∀ s ∈ [first, second],
      flagDocument.fromJson (flagDocument.toJson s.packet) = s.packet := by
    decide +kernel
  exact (packetsRead_of_sent hjson).1 _ (by decide +kernel)

end SessionPacket

end Qbs
