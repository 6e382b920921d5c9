import Mathlib.Data.List.Basic
import ParseView.Proofs.MapReading
import ParseView.Proofs.RecordReading
import ParseView.View.Editor

/-!
# The forms of a map agree

A map is handed out as a value, as a document and as an address. The document is read
as the value, and the address ends in the bytes of the document, written with six bits
to a character. This holds for every map there can be. For one that was asked for and
is read later it is a matter of when the buffer is looked at: all three forms are those
of the buffer as it is then, with every edit that came in between through any handle on
it and with none that was made to another buffer.
-/

namespace ParseView.Base64

open SourceMap (digitValue?_digit)

theorem ofNat_eq {n : Nat} {a : UInt8} (h : n % 0x100 = a.toNat) : UInt8.ofNat n = a := by
  rw [← UInt8.toNat_inj, UInt8.toNat_ofNat', ← h]

theorem digit_ne_equals : ∀ n < 64, digit n ≠ '=' := by decide

/-- Four digits are read as the 24 bits they were written from. -/
theorem decode?_digits {bits : Nat} (h : bits < 0x1000000) (rest : List Char) :
    decode? (digit (bits / 0x40000) :: digit (bits / 0x1000 % 0x40) ::
        digit (bits / 0x40 % 0x40) :: digit (bits % 0x40) :: rest) =
      (decode? rest).map fun more => UInt8.ofNat (bits / 0x10000) ::
        UInt8.ofNat (bits / 0x100) :: UInt8.ofNat bits :: more := by
  have hplain : digit (bits % 0x40) ≠ '=' := digit_ne_equals _ (by omega)
  have hbits : ((bits / 0x40000 * 0x40 + bits / 0x1000 % 0x40) * 0x40 + bits / 0x40 % 0x40) * 0x40
      + bits % 0x40 = bits := by omega
  -- Neither of the shorter groups begins here, since the fourth character is a digit.
  rw [decode?, digitValue?_digit _ (by omega), digitValue?_digit _ (by omega),
    digitValue?_digit _ (by omega), digitValue?_digit _ (by omega)]
  · simp only [Option.bind_eq_bind, Option.bind_some, hbits]
    cases decode? rest <;> rfl
  · exact fun _ hlast _ => hplain hlast
  · exact fun hlast _ => hplain hlast

theorem decode?_encode (bytes : List UInt8) : decode? (encode bytes) = some bytes := by
  fun_induction encode bytes with
  | case1 => rfl
  | case2 a bits =>
      have ha := a.toNat_lt
      have hbits : bits / 0x40 * 0x40 + bits % 0x40 = a.toNat * 0x10 := by omega
      rw [decode?, digitValue?_digit _ (by omega), digitValue?_digit _ (by omega)]
      simp only [Option.bind_eq_bind, Option.bind_some, hbits]
      rw [if_pos (by omega), ofNat_eq (a := a) (by omega)]
      rfl
  | case3 a b bits =>
      have ha := a.toNat_lt
      have hb := b.toNat_lt
      have hbits : (bits / 0x1000 * 0x40 + bits / 0x40 % 0x40) * 0x40 + bits % 0x40 =
          (a.toNat * 0x100 + b.toNat) * 0x4 := by omega
      have hplain : digit (bits % 0x40) ≠ '=' := digit_ne_equals _ (by omega)
      rw [decode?, digitValue?_digit _ (by omega), digitValue?_digit _ (by omega),
        digitValue?_digit _ (by omega)]
      · simp only [Option.bind_eq_bind, Option.bind_some, hbits]
        rw [if_pos (by omega), ofNat_eq (a := a) (by omega), ofNat_eq (a := b) (by omega)]
        rfl
      · exact fun hlast => hplain hlast
  | case4 a b c rest bits ih =>
      have ha := a.toNat_lt
      have hb := b.toNat_lt
      have hc := c.toNat_lt
      rw [decode?_digits (by omega), ih, ofNat_eq (a := a) (by omega),
        ofNat_eq (a := b) (by omega), ofNat_eq (a := c) (by omega)]
      rfl

end ParseView.Base64

namespace ParseView.SourceMap

open Json (Recovers Record Refusal recovers_text)

/-! ## Documents and addresses -/

theorem recovers_version : Recovers Json.Reader.uint8 versionToJson where
  scans version := Json.Value.scans_whole _
  reads version rest := by
    have hversion : version.toNat < 0x10000000000000000 :=
      Nat.lt_trans version.toNat_lt (by decide)
    show (Json.Reader.naturalBelow 0x100 "u8" (.number (.ok (.ofNat version.toNat hversion)))).map
      UInt8.ofNat = _
    rw [Json.naturalBelow_ofNat version.toNat_lt, Except.map, UInt8.ofNat_toNat]
  ne_null _ := nofun

/-- The file and the contents of the sources may be left out, wherever that leaves the
other fields. -/
theorem recovers : Recovers read toJson := by
  refine Record.recovers _ (by simp [stringList, recovers_version.scans]) ?_ ?_
  · rintro ⟨version, file, sources, sourcesContent, names, mappings⟩
    cases file <;> cases sourcesContent <;> simp [Fields.names, Json.Value.present]
  · rintro ⟨version, file, sources, sourcesContent, names, mappings⟩
    -- What is left out moves the other fields, but each is still found by its name.
    cases file <;> cases sourcesContent <;>
      exact Record.Takes.map (.field recovers_version rfl) SourceMap.mk
        |>.seq (.defaulted_present recovers_text rfl)
        |>.seq (.field recovers_text.listOf rfl)
        |>.seq (.defaulted_present recovers_text.listOf rfl)
        |>.seq (.field recovers_text.listOf rfl)
        |>.seq (.field recovers_text rfl)

/-- The bytes of a text are UTF-8 and decode to it. -/
theorem fromUTF8?_bytes (text : String) :
    String.fromUTF8? (bytes text).toByteArray = some text := by
  have hbytes : text.toList.utf8Encode = text.toByteArray := by simp
  show String.fromUTF8? text.toList.utf8Encode = some text
  rw [hbytes, String.fromUTF8?, dif_pos text.isValidUTF8]
  rfl

/-- What an address leads to: what is behind its start is decoded and read. -/
def readAddress? (address : String) : Option (Except Refusal SourceMap) := do
  let payload ← addressStart.toList.isPrefixOf? address.toList
  let bytes ← Base64.decode? payload
  let text ← String.fromUTF8? bytes.toByteArray
  return Json.readText read text

theorem readAddress?_address (map : SourceMap) : readAddress? map.address = some (.ok map) := by
  have hpayload : addressStart.toList.isPrefixOf? map.address.toList =
      some (Base64.encode (bytes map.text)) := by
    rw [List.isPrefixOf?_eq_some_iff_append_eq, address, String.toList_append,
      String.toList_ofList]
  have hread : Json.readText read map.text = .ok map := recovers.readText map
  simp [readAddress?, hpayload, Base64.decode?_encode, fromUTF8?_bytes, hread]

end ParseView.SourceMap

namespace ParseView

open Edit (Buffer Operation)

variable {n : Nat}

namespace Editor

/-- The edits among these that go through a handle on the same buffer. -/
def editsOf (editor : Editor n) (edits : List (Editor n × Operation)) : List Operation :=
  (edits.filter fun edit => edit.1 = editor).map (·.2)

theorem buffer_edit (editor other : Editor n) (operation : Operation) (buffers : Buffers n) :
    editor.buffer (other.edit operation buffers).2 =
      if other = editor then (editor.buffer buffers).perform operation
      else editor.buffer buffers := by
  by_cases h : other = editor
  · subst h
    simp [buffer, edit]
  · have hcell : (other.cell : Nat) ≠ editor.cell :=
      fun heq => h (congrArg Editor.mk (Fin.ext heq))
    rw [if_neg h]
    simp [buffer, edit, hcell]

theorem buffer_run (editor : Editor n) (buffers : Buffers n)
    (edits : List (Editor n × Operation)) :
    editor.buffer (buffers.run edits) = (editor.buffer buffers).run (editor.editsOf edits) := by
  induction edits generalizing buffers with
  | nil => rfl
  | cons step edits ih =>
      obtain ⟨other, operation⟩ := step
      have hstep := editor.buffer_edit other operation buffers
      rw [Buffers.run, List.foldl_cons, ← Buffers.run, ih, hstep]
      by_cases h : other = editor <;> simp [editsOf, h, Buffer.run]

end Editor

/-- Any map is read from its document, and its address is that document in base64. A
map that is asked for and read after more edits has three equal forms, those of the
buffer with exactly the edits that were made to it. -/
theorem MapExport.renderings_agree :
    (∀ map : SourceMap,
      Json.readText SourceMap.read map.text = .ok map ∧
      ∃ payload, map.address = SourceMap.addressStart ++ String.ofList payload ∧
        Base64.decode? payload = some (SourceMap.bytes map.text)) ∧
    ∀ (n : Nat) (buffers : Buffers n) (editor : Editor n) (options : SourceMap.Options)
      (edits : List (Editor n × Operation)),
      let request := editor.generateMap options
      let now := buffers.run edits
      let map := SourceMap.ofBuffer (editor.buffer now) options
      editor.buffer now = (editor.buffer buffers).run (editor.editsOf edits) ∧
      request.toMap now = map ∧
      Json.readText SourceMap.read (request.toJson now) = .ok map ∧
      SourceMap.readAddress? (request.toUrl now) = some (.ok map) := by
  refine ⟨fun map => ⟨SourceMap.recovers.readText map, _, rfl, ?_⟩, ?_⟩
  · exact Base64.decode?_encode _
  · intro n buffers editor options edits request now map
    refine ⟨editor.buffer_run buffers edits, rfl, ?_, ?_⟩
    · exact SourceMap.recovers.readText map
    · exact map.readAddress?_address

end ParseView
