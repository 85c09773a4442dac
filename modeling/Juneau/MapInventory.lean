import Juneau.LittleEndian
import Juneau.ServiceObjects

namespace Juneau.MapInventory

open LittleEndian

section Schema

inductive FieldType
  | unknown
  | u8
  | u16
  | u32
  | u64
  | ipv4
  | ipv4BE
  | port
  | portBE
  | mac
  | pad
  | enum
  | flags
  | raw
  deriving DecidableEq, Repr

/-- The dictionaries are the labels of an enumeration by value, and of the bits of a flag word in
the order in which they are shown. -/
structure Field where
  name : String
  type : FieldType
  width : Nat
  enum : Option (List (BitVec 64 × String)) := none
  flags : Option (List (BitVec 64 × String)) := none
  deriving DecidableEq, Repr

abbrev Schema := List Field

def Schema.width (s : Schema) : Nat := (s.map (·.width)).sum

/-- The value of a field message. The bytes of `raw` may be a nil slice. -/
inductive Value
  | u64 (x : BitVec 64)
  | ipv4 (text : String)
  | mac (text : String)
  | label (text : String)
  | raw (bytes : Option (List (BitVec 8)))
  deriving DecidableEq, Repr

structure BPFMapField where
  name : String
  value : Option Value
  flags : List String := []
  deriving DecidableEq, Repr

end Schema

section Values

/-- `HardwareAddr.String`. -/
def hardwareText : List (BitVec 8) → List Char
  | [] => []
  | [b] => [Nat.digitChar (b.toNat / 16), Nat.digitChar (b.toNat % 16)]
  | b :: rest =>
    Nat.digitChar (b.toNat / 16) :: Nat.digitChar (b.toNat % 16) :: ':' :: hardwareText rest

def renderEnum (dict : Option (List (BitVec 64 × String))) (x : BitVec 64) : String :=
  ((dict.getD []).lookup x).getD ("0x" ++ String.ofList (Nat.toDigits 16 x.toNat))

def renderFlags (dict : Option (List (BitVec 64 × String))) (x : BitVec 64) : List String :=
  if x = 0 then [] else ((dict.getD []).filter fun bit => x &&& bit.1 = bit.1 && bit.1 ≠ 0).map
    (·.2)

end Values

section Decode

def zeros (n : Nat) : List (BitVec 8) := List.replicate n 0

def copy (dst bytes : List (BitVec 8)) : List (BitVec 8) :=
  bytes.take dst.length ++ dst.drop bytes.length

def read (n : Nat) (src : List (BitVec 8)) : Option (List (BitVec 8)) :=
  if src.length < n then none else some (src.take n)

def readNumber (n : Nat) (order : List (BitVec 8) → List (BitVec 8)) (src : List (BitVec 8)) :
    Option (BitVec 64) :=
  (read n src).map fun bytes => BitVec.ofNat 64 (leValue (order bytes))

def readUint (src : List (BitVec 8)) (width : Nat) : Option (BitVec 64) :=
  if width ∈ [1, 2, 4, 8] then readNumber width id src else some 0

/-- A slice that is too short panics, which is `none`. -/
def decodeField (f : Field) (src : List (BitVec 8)) : Option BPFMapField :=
  match f.type with
  | .u8 => (readNumber 1 id src).map fun x => { name := f.name, value := some (.u64 x) }
  | .u16 | .port => (readNumber 2 id src).map fun x => { name := f.name, value := some (.u64 x) }
  | .u32 => (readNumber 4 id src).map fun x => { name := f.name, value := some (.u64 x) }
  | .u64 => (readNumber 8 id src).map fun x => { name := f.name, value := some (.u64 x) }
  | .portBE => (readNumber 2 List.reverse src).map fun x =>
    { name := f.name, value := some (.u64 x) }
  | .ipv4 => (read 4 src).map fun bytes =>
    { name := f.name, value := some (.ipv4 (dottedQuad (BitVec.ofNat 32 (leValue bytes)))) }
  | .ipv4BE =>
    (read 4 src).map fun bytes => { name := f.name, value := some (.ipv4 (dottedQuad (BitVec.ofNat 32 (leValue bytes.reverse)))) }
  | .mac => some { name := f.name, value := some (.mac (String.ofList (hardwareText src))) }
  | .enum => (readUint src f.width).map fun x =>
    { name := f.name, value := some (.label (renderEnum f.enum x)) }
  | .flags => (readUint src f.width).map fun x =>
    { name := f.name, value := some (.u64 x), flags := renderFlags f.flags x }
  | .raw => some { name := f.name, value := some (.raw (some src)) }
  | .pad | .unknown => some { name := f.name, value := none }

/-- The widths that the decoders of the fixed types read. -/
def typeWidth : FieldType → Option Nat
  | .u8 => some 1
  | .u16 | .port | .portBE => some 2
  | .u32 | .ipv4 | .ipv4BE => some 4
  | .u64 => some 8
  | .mac | .pad | .enum | .flags | .raw | .unknown => none

@[simp] theorem length_zeros (n : Nat) : (zeros n).length = n := List.length_replicate

end Decode

/-- The bytes of one field, padded to its width. A slice expression whose end lies before its start
panics. -/
def window (raw : List (BitVec 8)) (off width : Nat) : Option (List (BitVec 8)) :=
  let stop := if raw.length < off + width then raw.length else off + width
  if stop < off then none
  else
    let src := (raw.take stop).drop off
    some (if src.length < width then copy (zeros width) src else src)

def decodeFrom (raw : List (BitVec 8)) : Nat → Schema → Option (List BPFMapField)
  | _, [] => some []
  | off, f :: fs => do
    let buf ← window raw off f.width
    if f.type = .pad then decodeFrom raw (off + f.width) fs
    else
      let out ← decodeField f buf
      let rest ← decodeFrom raw (off + f.width) fs
      return out :: rest

def decodeFields (s : Schema) (raw : List (BitVec 8)) : Option (List BPFMapField) :=
  decodeFrom raw 0 s

/-- The fields with their offsets. -/
def Schema.layout : Schema → List (Field × Nat)
  | [] => []
  | f :: fs => (f, 0) :: (Schema.layout fs).map fun p => (p.1, f.width + p.2)

/-- The bytes padded with zeros, or cut, to a width. -/
def fitted (n : Nat) (raw : List (BitVec 8)) : List (BitVec 8) :=
  raw.take n ++ zeros (n - raw.length)

section Fitted

variable {raw : List (BitVec 8)} {n off width : Nat}

theorem length_fitted : (fitted n raw).length = n := by
  rw [fitted, List.length_append, List.length_take, length_zeros]
  omega

theorem drop_fitted (h : off ≤ raw.length) :
    (fitted n raw).drop off = fitted (n - off) (raw.drop off) := by
  rw [fitted, fitted, List.drop_append, List.drop_take, zeros, List.drop_replicate,
    List.length_take, List.length_drop, zeros]
  congr 2
  omega

theorem fitted_fitted (h : width ≤ n) : fitted width (fitted n raw) = fitted width raw := by
  rw [fitted, length_fitted, Nat.sub_eq_zero_of_le h, fitted, fitted, List.take_append,
    List.take_take, Nat.min_eq_left h, zeros, zeros, zeros,
    List.take_replicate, List.length_take, List.replicate_zero, List.append_nil]
  congr 2
  omega

theorem window_eq (h : off ≤ raw.length) :
    window raw off width = some (fitted width (raw.drop off)) := by
  unfold window
  by_cases hshort : raw.length < off + width
  · rw [if_pos hshort]
    dsimp only
    rw [if_neg (by omega), List.take_length, List.length_drop, if_pos (by omega),
      copy, length_zeros, fitted, List.length_drop, zeros, zeros, List.drop_replicate]
  · rw [if_neg hshort]
    dsimp only
    have hpad : width - (raw.length - off) = 0 := by omega
    rw [if_neg (by omega), List.length_drop, List.length_take, if_neg (by omega), List.drop_take, fitted, List.length_drop, hpad,
      Nat.add_sub_cancel_left, zeros, List.replicate_zero, List.append_nil]

end Fitted

/-- A decoder finds the bytes it reads in a buffer of the width of its field. -/
theorem decodeField_isSome {f : Field} {src : List (BitVec 8)}
    (hfits : ∀ n, typeWidth f.type = some n → f.width = n) (hsrc : src.length = f.width) :
    (decodeField f src).isSome := by
  have hread : ∀ n, src.length = n → (read n src).isSome := by
    rintro n rfl
    rw [read, if_neg (Nat.lt_irrefl _), Option.isSome_some]
  have hnumber : ∀ n order, src.length = n → (readNumber n order src).isSome := by
    intro n order hn
    rw [readNumber, Option.isSome_map]
    exact hread n hn
  have huint : (readUint src f.width).isSome := by
    unfold readUint
    split
    · exact hnumber _ _ hsrc
    · rfl
  have hlen : ∀ n, typeWidth f.type = some n → src.length = n := fun n hn => hsrc.trans (hfits n hn)
  unfold decodeField
  cases htype : f.type with
  | u8 | u16 | u32 | u64 | port | portBE =>
    rw [Option.isSome_map]
    exact hnumber _ _ (hlen _ (by rw [htype]; rfl))
  | ipv4 | ipv4BE =>
    rw [Option.isSome_map]
    exact hread _ (hlen _ (by rw [htype]; rfl))
  | enum | flags => rwa [Option.isSome_map]
  | mac | raw | pad | unknown => rfl

/-- The loop from an offset on, over the bytes as they are and over the bytes fitted to the whole
width. -/
theorem decodeFrom_fitted {s : Schema} {raw : List (BitVec 8)} {n off : Nat}
    (hwidths : ∀ f ∈ s, ∀ k, typeWidth f.type = some k → f.width = k)
    (hstarts : ∀ p ∈ s.layout, off + p.2 ≤ raw.length) (hn : off + s.width ≤ n) :
    ∃ out, decodeFrom raw off s = some out ∧ decodeFrom (fitted n raw) off s = some out := by
  induction s generalizing off with
  | nil => exact ⟨[], rfl, rfl⟩
  | cons f fs ih =>
    have hwidth : Schema.width (f :: fs) = f.width + Schema.width fs := rfl
    have hoff : off ≤ raw.length := hstarts (f, 0) List.mem_cons_self
    have hbuf : window (fitted n raw) off f.width = some (fitted f.width (raw.drop off)) := by
      rw [window_eq (by rw [length_fitted]; omega), drop_fitted hoff, fitted_fitted (by omega)]
    have hlater : ∀ p ∈ Schema.layout fs, off + f.width + p.2 ≤ raw.length := by
      intro p hp
      have := hstarts (p.1, f.width + p.2) (List.mem_cons_of_mem _ (List.mem_map.mpr ⟨p, hp, rfl⟩))
      dsimp only at this
      omega
    obtain ⟨rest, hrest, hrest'⟩ := ih (fun g hg => hwidths g (List.mem_cons_of_mem _ hg)) hlater (by omega)
    have hsome : (decodeField f (fitted f.width (raw.drop off))).isSome := decodeField_isSome (hwidths f List.mem_cons_self) length_fitted
    obtain ⟨out, hout⟩ := Option.isSome_iff_exists.mp hsome
    rw [decodeFrom, decodeFrom, window_eq hoff, hbuf, Option.bind_eq_bind,
      Option.bind_some, Option.bind_eq_bind, Option.bind_some, hrest, hrest', hout]
    split
    · exact ⟨rest, rfl, rfl⟩
    · exact ⟨out :: rest, rfl, rfl⟩

/-- The loop panics at the first field that begins behind the end. -/
theorem decodeFrom_starts {s : Schema} {raw : List (BitVec 8)} {off : Nat} {out : List BPFMapField}
    (h : decodeFrom raw off s = some out) : ∀ p ∈ s.layout, off + p.2 ≤ raw.length := by
  induction s generalizing off out with
  | nil => exact fun p hp => absurd hp List.not_mem_nil
  | cons f fs ih =>
    obtain ⟨buf, hbuf, hrest⟩ := Option.bind_eq_some_iff.mp h
    have hoff : off ≤ raw.length := by
      by_contra hbehind
      unfold window at hbuf
      have hshort : raw.length < off + f.width := by omega
      rw [if_pos hshort] at hbuf
      dsimp only at hbuf
      rw [if_pos (by omega)] at hbuf
      cases hbuf
    have hlater : ∃ rest, decodeFrom raw (off + f.width) fs = some rest := by
      split at hrest
      · exact ⟨out, hrest⟩
      · obtain ⟨_, -, hrest⟩ := Option.bind_eq_some_iff.mp hrest
        obtain ⟨rest, hrest, -⟩ := Option.bind_eq_some_iff.mp hrest
        exact ⟨rest, hrest⟩
    obtain ⟨rest, hrest⟩ := hlater
    intro p hp
    rcases List.mem_cons.mp hp with rfl | hp
    · exact hoff
    · obtain ⟨q, hq, rfl⟩ := List.mem_map.mp hp
      have := ih hrest q hq
      dsimp only
      omega

/-- No panic, and the same as on the fitted bytes, exactly where no field begins behind the end. -/
theorem decodeFields_eq_fitted_iff (s : Schema) (raw : List (BitVec 8))
    (hwidths : ∀ f ∈ s, ∀ n, typeWidth f.type = some n → f.width = n) :
    (∃ out, decodeFields s raw = some out ∧ decodeFields s (fitted s.width raw) = some out) ↔
      ∀ p ∈ s.layout, p.2 ≤ raw.length := by
  constructor
  · rintro ⟨out, hout, -⟩ p hp
    have := decodeFrom_starts hout p hp
    omega
  · intro hstarts
    exact decodeFrom_fitted hwidths (fun p hp => by have := hstarts p hp; omega) (by omega)

def portsKey : Schema := [⟨"src", .port, 2, none, none⟩, ⟨"_pad", .pad, 1, none, none⟩,
    ⟨"dst", .portBE, 2, none, none⟩]

theorem decodeFields_eq_fitted_short :
    decodeFields portsKey [0x35, 0, 7, 1] = decodeFields portsKey [0x35, 0, 7, 1, 0] ∧
      decodeFields portsKey [0x35, 0] ≠ decodeFields portsKey [0x35, 0, 0, 0, 0] := by
  have hexact := fun raw => decodeFields_eq_fitted_iff portsKey raw (by decide)
  obtain ⟨out, hshort, hfitted⟩ := (hexact [0x35, 0, 7, 1]).mpr (by decide)
  refine ⟨hshort.trans hfitted.symm, fun heq => ?_⟩
  exact absurd ((hexact [0x35, 0]).mp ⟨_, heq, rfl⟩) (by decide)

/-- A slice that ends before the last field begins. -/
theorem decodeFields_short_panics : decodeFields portsKey [0x35, 0] = none ∧
    decodeFields portsKey (fitted (Schema.width portsKey) [0x35, 0]) = some [⟨"src",
    some (.u64 0x35), []⟩, ⟨"dst", some (.u64 0), []⟩] := by
  decide

end Juneau.MapInventory
