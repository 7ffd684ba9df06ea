import Mathlib
import SqlTemplate.Cache.Key
import SqlTemplate.Proofs.Basic
import SqlTemplate.Shape.Reflection

/-!
# Encodings tell values apart

The canonical encoding of a value can be read back: a tag says what kind of value follows, and a
length how far its content goes. So two values whose encodings begin alike are the same, and no
encoding is the beginning of another one (`Value.encode_prefix_free`). This holds of data: values
without fragments and destinations, which the encoding only prints and which reflected values do not
have (`Datum.toValue_plain`), and without contents so long that their length does not fit.
-/

set_option autoImplicit false

namespace SqlTemplate

/-! ## Numbers -/

@[simp] theorem littleOctets_length (count n : Nat) : (littleOctets count n).length = count := by
  induction count generalizing n with
  | zero => rfl
  | succ count ih => simp [littleOctets, ih]

/-- Octets tell apart the numbers that fit in them. -/
theorem littleOctets_inj {count n m : Nat} (hn : n < 256 ^ count) (hm : m < 256 ^ count)
    (h : littleOctets count n = littleOctets count m) : n = m := by
  induction count generalizing n m with
  | zero => omega
  | succ count ih =>
      rw [Nat.pow_succ] at hn hm
      obtain ⟨hlow, hhigh⟩ := List.cons.inj h
      have hlow : n % 256 = m % 256 := by simpa using congrArg UInt8.toNat hlow
      have hhigh : n / 256 = m / 256 := ih (by omega) (by omega) hhigh
      omega

theorem complement_lt (count : Nat) (n : Int) : complement count n < 256 ^ count := by
  have hpow : (1 <<< (8 * count) : Nat) = 256 ^ count := by rw [Nat.one_shiftLeft, Nat.pow_mul]
  have hpos : (0 : Int) < (256 ^ count : Nat) := by positivity
  have hlt := Int.emod_lt_of_pos n hpos
  rw [complement, hpow]
  omega

/-- Complements tell apart integers that are not too far from each other. -/
theorem complement_inj {count : Nat} {n m : Int} (hnear : |n - m| < (256 ^ count : Nat))
    (h : complement count n = complement count m) : n = m := by
  have hpow : (1 <<< (8 * count) : Nat) = 256 ^ count := by rw [Nat.one_shiftLeft, Nat.pow_mul]
  have hpos : (0 : Int) < (256 ^ count : Nat) := by positivity
  rw [complement, complement, hpow] at h
  have hmod : n % (256 ^ count : Nat) = m % (256 ^ count : Nat) := by
    have := Int.emod_nonneg n hpos.ne'
    have := Int.emod_nonneg m hpos.ne'
    omega
  have hdvd : ((256 ^ count : Nat) : Int) ∣ n - m := Int.ModEq.dvd (Eq.symm hmod)
  exact sub_eq_zero.mp (Int.eq_zero_of_abs_lt_dvd hdvd hnear)

/-- The octets of an integer that is read in two's complement. -/
theorem complementOctets_inj {count : Nat} {n m : Int} (hnear : |n - m| < (256 ^ count : Nat))
    (h : littleOctets count (complement count n) = littleOctets count (complement count m)) :
    n = m :=
  complement_inj hnear (littleOctets_inj (complement_lt count n) (complement_lt count m) h)

/-! ## Texts and contents -/

theorem utf8_inj {s t : String} (h : utf8 s = utf8 t) : s = t := by
  rw [utf8, utf8, Array.toList_inj] at h
  exact String.toByteArray_inj.mp (ByteArray.ext h)

theorem lengthOctets_inj {n m : Nat} (hn : n < 2 ^ 64) (hm : m < 2 ^ 64)
    (h : lengthOctets n = lengthOctets m) : n = m :=
  littleOctets_inj (by omega) (by omega) h

/-- A content behind its length can be told from what follows it. -/
theorem content_append_inj {data other r s : List UInt8} (hdata : data.length < 2 ^ 64)
    (hother : other.length < 2 ^ 64)
    (h : lengthOctets data.length ++ (data ++ r) = lengthOctets other.length ++ (other ++ s)) :
    data = other ∧ r = s := by
  obtain ⟨hlength, hrest⟩ := List.append_inj h (by simp [lengthOctets])
  exact List.append_inj hrest (lengthOctets_inj hdata hother hlength)

theorem tagged_append_inj {tag mark : UInt8} {data other r s : List UInt8}
    (hdata : data.length < 2 ^ 64) (hother : other.length < 2 ^ 64)
    (h : tagged tag data ++ r = tagged mark other ++ s) : tag = mark ∧ data = other ∧ r = s := by
  rw [tagged, tagged, List.cons_append, List.cons_append, List.append_assoc,
    List.append_assoc] at h
  obtain ⟨htag, hrest⟩ := List.cons.inj h
  exact ⟨htag, content_append_inj hdata hother hrest⟩

/-! ## Values -/

/-- Whether a value is neither a fragment nor a destination. -/
def Value.Plain : Value → Prop
  | .fragment _ | .dest _ => False
  | _ => True

/-- Whether the lengths that are written for a value fit in 64 bits. -/
def Value.Fits : Value → Prop
  | .text s => (utf8 s).length < 2 ^ 64
  | .bytes data => data.length < 2 ^ 64
  | .list items => items.length < 2 ^ 64
  | .map entries => entries.length < 2 ^ 64 ∧ ∀ e ∈ entries, (utf8 e.1).length < 2 ^ 64
  | _ => True

mutual

/-- Whether a value and everything in it has a property. -/
def Value.Every (P : Value → Prop) : Value → Prop
  | .list items => P (.list items) ∧ EveryItem P items
  | .map entries => P (.map entries) ∧ EveryEntry P entries
  | v => P v

/-- Whether the items of a list and everything in them has a property. -/
def EveryItem (P : Value → Prop) : List Value → Prop
  | [] => True
  | v :: rest => v.Every P ∧ EveryItem P rest

/-- Whether the values of a map and everything in them has a property. -/
def EveryEntry (P : Value → Prop) : List (String × Value) → Prop
  | [] => True
  | (_, v) :: rest => v.Every P ∧ EveryEntry P rest

end

theorem Value.Every.self {P : Value → Prop} {v : Value} (h : v.Every P) : P v := by
  cases v with
  | list items => exact h.1
  | map entries => exact h.1
  | _ => exact h

/-- Whether a value is data: there is no fragment and no destination in it, at any depth, and the
lengths of its texts, bytes, lists and maps fit in 64 bits. -/
def Value.IsData (v : Value) : Prop := v.Every Value.Plain ∧ v.Every Value.Fits

/-! ## Reflected values -/

theorem putEntry_every {P : Value → Prop} {key : String} {v : Value} {entries : Entries}
    (h : EveryEntry P entries) (hv : v.Every P) : EveryEntry P (putEntry key v entries) := by
  induction entries with
  | nil => exact ⟨hv, trivial⟩
  | cons e rest ih =>
      rw [putEntry]
      split
      · exact ⟨hv, h.2⟩
      · exact ⟨h.1, ih h.2⟩

theorem ofEntries_plain {entries : Entries} (h : EveryEntry Value.Plain entries) :
    (Value.ofEntries entries).Every Value.Plain := by
  have hput : ∀ front, EveryEntry Value.Plain front →
      EveryEntry Value.Plain (entries.foldl (fun m e => putEntry e.1 e.2 m) front) := by
    induction entries with
    | nil => exact fun _ hfront => hfront
    | cons e rest ih => exact fun front hfront => ih h.2 _ (putEntry_every hfront h.1)
  exact ⟨trivial, hput [] trivial⟩

mutual

/-- Reflected values have no fragments and no destinations in them. -/
theorem Datum.toValue_plain {d : Datum} {v : Value} (h : d.toValue = .ok v) :
    v.Every Value.Plain := by
  match d with
  | .bool _ | .float32 _ | .float64 _ | .text _ | .bytes _ | .instant _ | .absent | .marker _ =>
    cases h
    trivial
  | .int type n =>
    rw [Datum.toValue] at h
    repeat' split at h
    all_goals cases h
    trivial
  | .present d => exact Datum.toValue_plain (d := d) h
  | .list items | .array items =>
    obtain ⟨vs, hvs, rfl⟩ := map_eq_ok.mp h
    exact ⟨trivial, valuesOfData_plain hvs⟩
  | .map entries =>
    obtain ⟨vs, hvs, rfl⟩ := map_eq_ok.mp h
    exact ofEntries_plain (entriesOfMap_plain hvs)
  | .record _ fields =>
    obtain ⟨vs, hvs, rfl⟩ := map_eq_ok.mp h
    exact ofEntries_plain (entriesOfFields_plain hvs)
  | .unit | .char _ | .borrowed _ | .tuple _ | .boxed _ | .variant _ _ => cases h

theorem valuesOfData_plain {items : List Datum} {vs : List Value}
    (h : valuesOfData items = .ok vs) : EveryItem Value.Plain vs := by
  match items with
  | [] =>
    cases h
    trivial
  | d :: rest =>
    obtain ⟨v, hv, h⟩ := bind_eq_ok.mp h
    obtain ⟨vs, hvs, h⟩ := bind_eq_ok.mp h
    cases h
    exact ⟨Datum.toValue_plain hv, valuesOfData_plain hvs⟩

theorem entriesOfMap_plain {entries : List (Datum × Datum)} {vs : Entries}
    (h : entriesOfMap entries = .ok vs) : EveryEntry Value.Plain vs := by
  match entries with
  | [] =>
    cases h
    trivial
  | (key, d) :: rest =>
    obtain ⟨k, -, h⟩ := bind_eq_ok.mp h
    obtain ⟨v, hv, h⟩ := bind_eq_ok.mp h
    obtain ⟨vs, hvs, h⟩ := bind_eq_ok.mp h
    cases h
    exact ⟨Datum.toValue_plain hv, entriesOfMap_plain hvs⟩

theorem entriesOfFields_plain {fields : List (String × Datum)} {vs : Entries}
    (h : entriesOfFields fields = .ok vs) : EveryEntry Value.Plain vs := by
  match fields with
  | [] =>
    cases h
    trivial
  | (name, d) :: rest =>
    obtain ⟨v, hv, h⟩ := bind_eq_ok.mp h
    obtain ⟨vs, hvs, h⟩ := bind_eq_ok.mp h
    cases h
    exact ⟨Datum.toValue_plain hv, entriesOfFields_plain hvs⟩

end

/-! ## Values that are told apart -/

namespace Value

/-- The tag with which the encoding of a value begins. -/
def tag : Value → UInt8
  | .nil => 0
  | .bool _ => 1
  | .int _ => 2
  | .float _ => 3
  | .text _ => 4
  | .bytes _ => 5
  | .instant _ => 6
  | .list _ => 7
  | .map _ => 8
  | .fragment _ => 9
  | .dest _ => 10

/-- The content behind the tag; of a list or map it is the number of items. -/
def content : Value → List UInt8
  | .nil => []
  | .bool b => [if b then 1 else 0]
  | .int n => littleOctets 8 (complement 8 n.toInt)
  | .float x => littleOctets 8 x.toBits.toNat
  | .text s => utf8 s
  | .bytes data => data
  | .instant t => littleOctets 16 (complement 16 t.nanos)
  | .list items => lengthOctets items.length
  | .map entries => lengthOctets entries.length
  | .fragment f => utf8 f.toText
  | .dest path => utf8 path.toText

/-- What the encoding of a list or map has behind the content. -/
def inside : Value → List UInt8
  | .list items => encodeValues items
  | .map entries => encodeEntries entries
  | _ => []

theorem encode_eq (v : Value) : v.encode = tagged v.tag v.content ++ v.inside := by
  cases v <;> simp [encode, tag, content, inside]

theorem IsData.content_length {v : Value} (h : v.IsData) : v.content.length < 2 ^ 64 := by
  cases v with
  | text s => exact h.2
  | bytes data => exact h.2
  | fragment f => exact h.1.elim
  | dest path => exact h.1.elim
  | _ => simp [content, lengthOctets]

/-- What two encodings that begin alike have in common. -/
theorem encode_append_eq {v w : Value} (hv : v.IsData) (hw : w.IsData) {r s : List UInt8}
    (h : v.encode ++ r = w.encode ++ s) :
    v.tag = w.tag ∧ v.content = w.content ∧ v.inside ++ r = w.inside ++ s := by
  rw [encode_eq, encode_eq, List.append_assoc, List.append_assoc] at h
  exact tagged_append_inj hv.content_length hw.content_length h

end Value

theorem int64_near (n m : Int64) : |n.toInt - m.toInt| < (256 ^ 8 : Nat) := by
  have := n.le_toInt
  have := n.toInt_lt
  have := m.le_toInt
  have := m.toInt_lt
  rw [abs_lt]
  omega

theorem Instant.near (t u : Instant) : |t.nanos - u.nanos| < (256 ^ 16 : Nat) := by
  have ht := t.floor_le
  have ht' := t.le_ceiling
  have hu := u.floor_le
  have hu' := u.le_ceiling
  simp only [Instant.floor, Instant.ceiling, nanosPerSecond] at ht ht' hu hu'
  rw [abs_lt]
  omega

/-- A double is known from its bits. -/
theorem float_eq_of_octets {x y : Float}
    (h : littleOctets 8 x.toBits.toNat = littleOctets 8 y.toBits.toNat) : x = y := by
  have hbits := littleOctets_inj x.toBits.toNat_lt y.toBits.toNat_lt h
  rw [← Float.ofBits_toBits x, ← Float.ofBits_toBits y, UInt64.toNat_inj.mp hbits]

mutual

/-- **Data whose encodings begin alike is the same data, and the same follows.** -/
theorem Value.encode_append_inj {v w : Value} (hv : v.IsData) (hw : w.IsData) {r s : List UInt8}
    (h : v.encode ++ r = w.encode ++ s) : v = w ∧ r = s := by
  obtain ⟨htag, hcontent, hinside⟩ := Value.encode_append_eq hv hw h
  match v with
  | .nil =>
    cases w with
    | nil => exact ⟨rfl, hinside⟩
    | _ => simp [Value.tag] at htag
  | .bool b =>
    cases w with
    | bool c => exact ⟨by cases b <;> cases c <;> simp_all [Value.content], hinside⟩
    | _ => simp [Value.tag] at htag
  | .int n =>
    cases w with
    | int m =>
        have hint := complementOctets_inj (int64_near n m) hcontent
        exact ⟨congrArg Value.int (Int64.toInt_inj.mp hint), hinside⟩
    | _ => simp [Value.tag] at htag
  | .float x =>
    cases w with
    | float y => exact ⟨congrArg Value.float (float_eq_of_octets hcontent), hinside⟩
    | _ => simp [Value.tag] at htag
  | .text t =>
    cases w with
    | text u => exact ⟨congrArg Value.text (utf8_inj hcontent), hinside⟩
    | _ => simp [Value.tag] at htag
  | .bytes data =>
    cases w with
    | bytes other => exact ⟨congrArg Value.bytes hcontent, hinside⟩
    | _ => simp [Value.tag] at htag
  | .instant t =>
    cases w with
    | instant u =>
        have hnanos := complementOctets_inj (Instant.near t u) hcontent
        refine ⟨congrArg Value.instant ?_, hinside⟩
        cases t
        cases u
        congr
    | _ => simp [Value.tag] at htag
  | .list items =>
    cases w with
    | list others =>
        -- The count comes before the items, so both lists are read to the same end.
        have hcount := lengthOctets_inj hv.2.self hw.2.self hcontent
        obtain ⟨rfl, hrest⟩ :=
          encodeValues_append_inj ⟨hv.1.2, hv.2.2⟩ ⟨hw.1.2, hw.2.2⟩ hcount hinside
        exact ⟨rfl, hrest⟩
    | _ => simp [Value.tag] at htag
  | .map entries =>
    cases w with
    | map others =>
        obtain ⟨hlength, hkeys⟩ := hv.2.self
        obtain ⟨hlength', hkeys'⟩ := hw.2.self
        have hcount := lengthOctets_inj hlength hlength' hcontent
        obtain ⟨rfl, hrest⟩ := encodeEntries_append_inj ⟨hv.1.2, hv.2.2⟩ ⟨hw.1.2, hw.2.2⟩ hkeys hkeys'
          hcount hinside
        exact ⟨rfl, hrest⟩
    | _ => simp [Value.tag] at htag
  | .fragment f => exact hv.1.elim
  | .dest path => exact hv.1.elim

theorem encodeValues_append_inj {items others : List Value}
    (hitems : EveryItem Value.Plain items ∧ EveryItem Value.Fits items)
    (hothers : EveryItem Value.Plain others ∧ EveryItem Value.Fits others)
    (hcount : items.length = others.length) {r s : List UInt8}
    (h : encodeValues items ++ r = encodeValues others ++ s) : items = others ∧ r = s := by
  match items, others with
  | [], [] => exact ⟨rfl, h⟩
  | v :: items, w :: others =>
    obtain ⟨⟨hv, hplain⟩, hv', hfits⟩ := hitems
    obtain ⟨⟨hw, hplain'⟩, hw', hfits'⟩ := hothers
    rw [encodeValues, encodeValues, List.append_assoc, List.append_assoc] at h
    obtain ⟨rfl, hitem⟩ := Value.encode_append_inj ⟨hv, hv'⟩ ⟨hw, hw'⟩ h
    obtain ⟨rfl, hrest⟩ :=
      encodeValues_append_inj ⟨hplain, hfits⟩ ⟨hplain', hfits'⟩ (by simpa using hcount) hitem
    exact ⟨rfl, hrest⟩

theorem encodeEntries_append_inj {entries others : List (String × Value)}
    (hentries : EveryEntry Value.Plain entries ∧ EveryEntry Value.Fits entries)
    (hothers : EveryEntry Value.Plain others ∧ EveryEntry Value.Fits others)
    (hkeys : ∀ e ∈ entries, (utf8 e.1).length < 2 ^ 64)
    (hkeys' : ∀ e ∈ others, (utf8 e.1).length < 2 ^ 64)
    (hcount : entries.length = others.length) {r s : List UInt8}
    (h : encodeEntries entries ++ r = encodeEntries others ++ s) : entries = others ∧ r = s := by
  match entries, others with
  | [], [] => exact ⟨rfl, h⟩
  | (key, v) :: entries, (name, w) :: others =>
    obtain ⟨⟨hv, hplain⟩, hv', hfits⟩ := hentries
    obtain ⟨⟨hw, hplain'⟩, hw', hfits'⟩ := hothers
    rw [List.forall_mem_cons] at hkeys hkeys'
    simp only [encodeEntries, List.append_assoc] at h
    obtain ⟨hnames, hbehind⟩ := content_append_inj hkeys.1 hkeys'.1 h
    obtain rfl := utf8_inj hnames
    obtain ⟨rfl, hentry⟩ := Value.encode_append_inj ⟨hv, hv'⟩ ⟨hw, hw'⟩ hbehind
    obtain ⟨rfl, hrest⟩ := encodeEntries_append_inj ⟨hplain, hfits⟩ ⟨hplain', hfits'⟩ hkeys.2
      hkeys'.2 (by simpa using hcount) hentry
    exact ⟨rfl, hrest⟩

end

/-- **Encodings are unambiguous.** Data with the same encoding is the same, with its texts, numbers
and bits, its items in the same order and its entries in the same order; and an encoding that is
the beginning of another one is all of it. -/
theorem Value.encode_prefix_free {v w : Value} (hv : v.IsData) (hw : w.IsData) :
    (v.encode = w.encode ↔ v = w) ∧ (v.encode <+: w.encode → v.encode = w.encode) := by
  refine ⟨⟨fun h => ?_, congrArg Value.encode⟩, fun ⟨rest, h⟩ => ?_⟩
  · exact (encode_append_inj hv hw (congrArg (· ++ []) h)).1
  · have hsame := encode_append_inj (r := rest) (s := []) hv hw (by simpa using h)
    exact congrArg Value.encode hsame.1

/-- Nesting is told apart, even where the texts are the same one behind the other. -/
theorem Value.encode_prefix_free_nested :
    let v : Value := .list [.text "ab", .map [("c", .nil)]]
    let w : Value := .list [.text "a", .map [("bc", .nil)]]
    v.IsData ∧ w.IsData ∧ v.encode ≠ w.encode ∧ ¬ v.encode <+: w.encode := by
  intro v w
  have hv : v.IsData := by
    simp [v, IsData, Every, EveryItem, EveryEntry, Plain, Fits]
    decide
  have hw : w.IsData := by
    simp [w, IsData, Every, EveryItem, EveryEntry, Plain, Fits]
    decide
  obtain ⟨hsame, hbegins⟩ := Value.encode_prefix_free hv hw
  have hne : v.encode ≠ w.encode := fun h => by
    simpa [v, w] using hsame.mp h
  exact ⟨hv, hw, hne, fun h => hne (hbegins h)⟩

end SqlTemplate
