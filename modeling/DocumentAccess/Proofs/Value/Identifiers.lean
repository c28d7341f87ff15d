import DocumentAccess.Proofs.Outcome
import DocumentAccess.Transformer

/-!
# Texts that name identifiers

A text of 24 hexadecimal digits names an identifier: the one whose bytes are the digits
(`identifierOf`). How a driver reads and writes identifiers is its own affair. All that is
used here is what drivers document, that they read such a text as the identifier that it
names, and that they write an identifier as its digits in small letters
(`IdentifierNotation.Documented`). The notation that runs does so
(`IdentifierNotation.documented_hexadecimal`).

An identifier has no letter case. Its own text is in small letters, so it is what every
text that names it is in small letters (`Documented.text_eq`), and two texts name one
identifier exactly if they differ in letter case alone. **`Codec.objectIdArray_symmetric_iff`**
says what this makes of the codec that stores lists of such texts as identifiers.
-/

namespace DocumentAccess

/-- A text of 24 hexadecimal digits, in either letter case. -/
structure IsHexadecimal (s : String) : Prop where
  length : s.toList.length = 24
  digits : ∀ c ∈ s.toList, (hexDigit? c).isSome = true

/-- What drivers document of identifiers. -/
structure IdentifierNotation.Documented (n : IdentifierNotation) : Prop where
  /-- A text of 24 hexadecimal digits is read as the identifier of the bytes that it shows. -/
  read : ∀ s bytes, IsHexadecimal s → hexBytes? s.toList = some bytes → n.ofText? s = some ⟨bytes⟩
  /-- An identifier is written as the hexadecimal digits of its bytes. -/
  written : ∀ id, n.text id = hexText id.bytes

theorem IdentifierNotation.documented_hexadecimal :
    IdentifierNotation.hexadecimal.Documented where
  read s bytes h hbytes := by
    have hlength : s.toList.length = ObjectId.textLength := h.length
    show ObjectId.ofText? s = _
    rw [ObjectId.ofText?, if_pos hlength, hbytes]
    rfl
  written _ := rfl

variable {s : String} {texts : List String} {n : IdentifierNotation}

/-- Digits in pairs can be read as bytes. -/
theorem exists_hexBytes? {cs : List Char} (hpairs : cs.length % 2 = 0)
    (hdigits : ∀ c ∈ cs, (hexDigit? c).isSome = true) : ∃ bytes, hexBytes? cs = some bytes := by
  fun_induction hexBytes? cs with
  | case1 => exact ⟨[], rfl⟩
  | case2 c => exact absurd hpairs Nat.one_ne_zero
  | case3 c d rest hi lo bytes hrest hhi hlo ih => exact ⟨_, rfl⟩
  | case4 c d rest hunread ih =>
      obtain ⟨hc, hmore⟩ := List.forall_mem_cons.mp hdigits
      obtain ⟨hd, hrest⟩ := List.forall_mem_cons.mp hmore
      obtain ⟨hi, hhi⟩ := Option.isSome_iff_exists.mp hc
      obtain ⟨lo, hlo⟩ := Option.isSome_iff_exists.mp hd
      have hlength : rest.length % 2 = 0 := by
        simp only [List.length_cons] at hpairs
        omega
      obtain ⟨bytes, hbytes⟩ := ih hlength hrest
      exact absurd hbytes (hunread hi lo bytes hhi hlo)

theorem IsHexadecimal.exists_bytes (h : IsHexadecimal s) :
    ∃ bytes, hexBytes? s.toList = some bytes :=
  exists_hexBytes? (by rw [h.length]) h.digits

/-- The bytes that a text shows in hexadecimal digits. -/
def bytesOf (s : String) : List UInt8 := (hexBytes? s.toList).getD []

/-- The identifier that a text names. -/
def identifierOf (s : String) : Value := .objectId ⟨bytesOf s⟩

theorem IsHexadecimal.bytes_eq (h : IsHexadecimal s) : hexBytes? s.toList = some (bytesOf s) := by
  obtain ⟨bytes, hbytes⟩ := h.exists_bytes
  rw [bytesOf, hbytes]
  rfl

/-- Texts of 24 digits are stored as the identifiers that they name. -/
theorem IsHexadecimal.toIdentifierBy (hn : n.Documented) (h : IsHexadecimal s) :
    Codec.toIdentifierBy n (.str s) = .ok (identifierOf s) := by
  have hpresent : (!(Value.str s).truthy) = false := by
    have hne : s ≠ "" := by
      rintro rfl
      exact nomatch h.length
    simp [Value.truthy, hne]
  rw [Codec.toIdentifierBy, hpresent, hn.read s _ h h.bytes_eq]
  rfl

theorem mapM_toIdentifierBy (hn : n.Documented) (h : ∀ s ∈ texts, IsHexadecimal s) :
    (texts.map Value.str).mapM (Codec.toIdentifierBy n) = .ok (texts.map identifierOf) := by
  rw [List.mapM_map]
  exact mapM_eq_map fun s hs => (h s hs).toIdentifierBy hn

/-! ## Letter case -/

section LetterCase

variable {c : Char} {k : Nat} {cs : List Char} {bytes : List UInt8}

theorem hexDigit_of_ascii : ∀ k < 128, ∀ n ∈ hexDigit? (Char.ofNat k),
    n < 16 ∧ hexDigit n = (Char.ofNat k).toLower := by decide

/-- The digit that is written for the value of a digit is that digit as a small letter. -/
theorem hexDigit_of_hexDigit? (h : hexDigit? c = some k) : k < 16 ∧ hexDigit k = c.toLower := by
  have hascii : c.toNat < 128 := by
    have hle {d : Char} (hd : c ≤ d) : c.toNat ≤ d.toNat := hd
    rw [hexDigit?] at h
    split at h
    case isTrue hc => exact Nat.lt_of_le_of_lt (hle hc.2) (by decide)
    case isFalse =>
      split at h
      case isTrue hc => exact Nat.lt_of_le_of_lt (hle hc.2) (by decide)
      case isFalse =>
        split at h
        case isTrue hc => exact Nat.lt_of_le_of_lt (hle hc.2) (by decide)
        case isFalse => exact nomatch h
  have hdigit := hexDigit_of_ascii c.toNat hascii k
  rw [Char.ofNat_toNat] at hdigit
  exact hdigit h

/-- The digits that are written for what was read are the digits as small letters. -/
theorem hexPairs_of_hexBytes? (h : hexBytes? cs = some bytes) :
    bytes.flatMap hexPair = cs.map Char.toLower := by
  fun_induction hexBytes? cs generalizing bytes with
  | case1 =>
      obtain rfl := Option.some.inj h
      rfl
  | case2 => cases h
  | case3 c d rest hi lo more hrest hhi hlo ih =>
      obtain rfl := Option.some.inj h
      obtain ⟨hhi16, hfirst⟩ := hexDigit_of_hexDigit? hhi
      obtain ⟨hlo16, hsecond⟩ := hexDigit_of_hexDigit? hlo
      have hbyte : (UInt8.ofNat (16 * hi + lo)).toNat = 16 * hi + lo :=
        UInt8.toNat_ofNat_of_lt' (show 16 * hi + lo < 256 by omega)
      have hdiv : (16 * hi + lo) / 16 = hi := by omega
      have hmod : (16 * hi + lo) % 16 = lo := by omega
      rw [List.flatMap_cons, ih hrest, hexPair, hbyte, hdiv, hmod, hfirst, hsecond]
      rfl
  | case4 => cases h

/-- Bytes are read back from their digits. -/
theorem hexBytes?_hexPairs (bytes : List UInt8) :
    hexBytes? (bytes.flatMap hexPair) = some bytes := by
  induction bytes with
  | nil => rfl
  | cons b bytes ih =>
      have hb : b.toNat < 256 := b.toNat_lt_size
      have hsum : 16 * (b.toNat / 16) + b.toNat % 16 = b.toNat := by omega
      rw [List.flatMap_cons, hexPair, List.cons_append, List.cons_append, List.nil_append,
        hexBytes?, hexDigit?_hexDigit _ (by omega), hexDigit?_hexDigit _ (by omega), ih]
      simp only [hsum, UInt8.ofNat_toNat]

/-- The digits of the bytes that a text shows are the text in small letters. -/
theorem IsHexadecimal.hexText_bytesOf (h : IsHexadecimal s) : hexText (bytesOf s) = s.toLower := by
  rw [← String.toList_inj, hexText, String.toList_ofList, hexPairs_of_hexBytes? h.bytes_eq]
  exact String.toList_map.symm

theorem hexText_inj {other : List UInt8} : hexText bytes = hexText other ↔ bytes = other := by
  constructor
  · intro h
    have hpairs : bytes.flatMap hexPair = other.flatMap hexPair := by
      rw [← String.toList_inj] at h
      simpa [hexText] using h
    have hread : some bytes = some other := by
      rw [← hexBytes?_hexPairs bytes, hpairs, hexBytes?_hexPairs]
    exact Option.some.inj hread
  · exact congrArg hexText

/-- Texts of 24 digits name one identifier exactly if they differ in letter case alone. -/
theorem IsHexadecimal.identifierOf_eq_iff {t : String} (hs : IsHexadecimal s)
    (ht : IsHexadecimal t) : identifierOf s = identifierOf t ↔ s.toLower = t.toLower := by
  rw [identifierOf, identifierOf, ← hs.hexText_bytesOf, ← ht.hexText_bytesOf, hexText_inj]
  simp

/-- The text of the identifier that a text names is the text in small letters. -/
theorem IdentifierNotation.Documented.text_eq (hn : n.Documented) (h : IsHexadecimal s) :
    Codec.ofIdentifierBy n (identifierOf s) = .str s.toLower := by
  show Value.str (n.text ⟨bytesOf s⟩) = _
  rw [hn.written, h.hexText_bytesOf]

end LetterCase

namespace Codec

theorem storeBy_hexadecimal (hn : n.Documented) (h : ∀ s ∈ texts, IsHexadecimal s) :
    objectIdArray.storeBy n (.list (texts.map .str)) = .ok (.list (texts.map identifierOf)) := by
  rw [storeBy, mapM_toIdentifierBy hn h]
  rfl

/-- However a driver reads and writes identifiers, as long as it does what drivers document: texts
    of 24 hexadecimal digits are stored as the identifiers that they name, and read back in small
    letters. So a list of them is read back exactly if all its letters are small, and two of them
    are stored alike exactly if they differ in letter case alone. -/
theorem objectIdArray_symmetric_iff (hn : n.Documented) (h : ∀ s ∈ texts, IsHexadecimal s) :
    ∃ ids : List ObjectId,
      objectIdArray.storeBy n (.list (texts.map .str)) = .ok (.list (ids.map .objectId))
        ∧ objectIdArray.loadBy n (.list (ids.map .objectId))
          = .ok (.list (texts.map fun s => .str s.toLower))
        ∧ (objectIdArray.loadBy n (.list (ids.map .objectId)) = .ok (.list (texts.map .str))
          ↔ ∀ s ∈ texts, s.toLower = s)
        ∧ ∀ s ∈ texts, ∀ t ∈ texts,
          toIdentifierBy n (.str s) = toIdentifierBy n (.str t) ↔ s.toLower = t.toLower := by
  have hids : texts.map identifierOf
      = (texts.map fun s => (⟨bytesOf s⟩ : ObjectId)).map .objectId := by
    rw [List.map_map]
    rfl
  have hread : (texts.map identifierOf).map (ofIdentifierBy n)
      = texts.map fun s => .str s.toLower := by
    rw [List.map_map]
    exact List.map_congr_left fun s hs => hn.text_eq (h s hs)
  have hload : objectIdArray.loadBy n (.list (texts.map identifierOf))
      = .ok (.list (texts.map fun s => .str s.toLower)) := by
    rw [loadBy, hread]
  have halike : ∀ s ∈ texts, ∀ t ∈ texts,
      toIdentifierBy n (.str s) = toIdentifierBy n (.str t) ↔ s.toLower = t.toLower := by
    intro s hs t ht
    rw [(h s hs).toIdentifierBy hn, (h t ht).toIdentifierBy hn, Except.ok.injEq,
      (h s hs).identifierOf_eq_iff (h t ht)]
  refine ⟨_, hids ▸ storeBy_hexadecimal hn h, hids ▸ hload, ?_, halike⟩
  rw [← hids, hload]
  constructor
  · intro hsame s hs
    exact Value.str.inj (List.map_inj_left.mp (Value.list.inj (Except.ok.inj hsame)) s hs)
  · intro hsmall
    refine congrArg (fun vs => Except.ok (Value.list vs)) (List.map_congr_left fun s hs => ?_)
    rw [hsmall s hs]

/-- Two texts of one identifier in different letter cases are stored alike, and the one with
    capital letters is not read back. -/
theorem objectIdArray_symmetric_iff_cases :
    IdentifierNotation.hexadecimal.Documented
      ∧ (∀ s ∈ ["5f1d7f3b9c8b4a2d3e4f5a6b", "5F1D7F3B9C8B4A2D3E4F5A6B"], IsHexadecimal s)
      ∧ toIdentifier (.str "5f1d7f3b9c8b4a2d3e4f5a6b")
        = toIdentifier (.str "5F1D7F3B9C8B4A2D3E4F5A6B")
      ∧ ∃ ids : List ObjectId,
        objectIdArray.store
            (.list [.str "5f1d7f3b9c8b4a2d3e4f5a6b", .str "5F1D7F3B9C8B4A2D3E4F5A6B"])
          = .ok (.list (ids.map .objectId))
          ∧ objectIdArray.load (.list (ids.map .objectId))
            = .ok (.list [.str "5f1d7f3b9c8b4a2d3e4f5a6b", .str "5f1d7f3b9c8b4a2d3e4f5a6b"]) := by
  have hdigits : ∀ s ∈ ["5f1d7f3b9c8b4a2d3e4f5a6b", "5F1D7F3B9C8B4A2D3E4F5A6B"],
      IsHexadecimal s :=
    List.forall_mem_cons.mpr ⟨⟨rfl, by simp [hexDigit?]⟩,
      List.forall_mem_singleton.mpr ⟨rfl, by simp [hexDigit?]⟩⟩
  have hdocumented := IdentifierNotation.documented_hexadecimal
  obtain ⟨ids, hstored, hread, -, halike⟩ := objectIdArray_symmetric_iff hdocumented hdigits
  have hsmall : "5F1D7F3B9C8B4A2D3E4F5A6B".toLower = "5f1d7f3b9c8b4a2d3e4f5a6b" := by
    decide +kernel
  have hkept : "5f1d7f3b9c8b4a2d3e4f5a6b".toLower = "5f1d7f3b9c8b4a2d3e4f5a6b" := by
    decide +kernel
  refine ⟨hdocumented, hdigits, ?_, ids, hstored, ?_⟩
  · have hsecond := List.mem_cons_of_mem "5f1d7f3b9c8b4a2d3e4f5a6b"
      (List.mem_cons_self (a := "5F1D7F3B9C8B4A2D3E4F5A6B") (l := []))
    refine (halike _ (List.mem_cons_self ..) _ hsecond).mpr ?_
    rw [hsmall, hkept]
  · show objectIdArray.loadBy .hexadecimal _ = _
    rw [hread, List.map_cons, List.map_singleton, hsmall, hkept]

/-- A text with a capital letter is stored like another text, and read back as that one. -/
theorem objectIdArray_loses_case :
    (IsHexadecimal "00000000000000000000000A" ∧ IsHexadecimal "00000000000000000000000a")
      ∧ objectIdArray.store (.list [.str "00000000000000000000000A"])
        = .ok (.list [.objectId ⟨[0, 0, 0, 0, 0, 0, 0, 0, 0, 0, 0, 10]⟩])
      ∧ objectIdArray.store (.list [.str "00000000000000000000000a"])
        = .ok (.list [.objectId ⟨[0, 0, 0, 0, 0, 0, 0, 0, 0, 0, 0, 10]⟩])
      ∧ objectIdArray.load (.list [.objectId ⟨[0, 0, 0, 0, 0, 0, 0, 0, 0, 0, 0, 10]⟩])
        = .ok (.list [.str "00000000000000000000000a"]) := by
  have hcapital : IsHexadecimal "00000000000000000000000A" := ⟨rfl, by simp [hexDigit?]⟩
  have hsmall : IsHexadecimal "00000000000000000000000a" := ⟨rfl, by simp [hexDigit?]⟩
  have hdocumented := IdentifierNotation.documented_hexadecimal
  have hstored := storeBy_hexadecimal hdocumented (List.forall_mem_singleton.mpr hcapital)
  have hsame := storeBy_hexadecimal hdocumented (List.forall_mem_singleton.mpr hsmall)
  have hnamed : bytesOf "00000000000000000000000A" = [0, 0, 0, 0, 0, 0, 0, 0, 0, 0, 0, 10] := by
    decide +kernel
  have halike : bytesOf "00000000000000000000000a" = [0, 0, 0, 0, 0, 0, 0, 0, 0, 0, 0, 10] := by
    decide +kernel
  rw [List.map_singleton, List.map_singleton, identifierOf, hnamed] at hstored
  rw [List.map_singleton, List.map_singleton, identifierOf, halike] at hsame
  exact ⟨⟨hcapital, hsmall⟩, hstored, hsame, rfl⟩

end Codec

end DocumentAccess
