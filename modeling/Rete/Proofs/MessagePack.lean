import Mathlib.Algebra.Group.Int.Defs
import Mathlib.Algebra.Group.Nat.Defs
import Rete.MessagePack

/-!
# Reading what was written

An item whose numbers have up to eight bytes and whose lengths up to four (`Item.Fits`) is read
back from the bytes that it is written as, whatever follows them (`decode_encode`). The first byte
of an item tells how to go on (`Lead`), so that each kind of item is read back for the same reason
(`Item.readsBack_of_lead`), and the kinds with a length share how it is told
(`LengthFormat.Leads`).
-/

namespace Rete.MessagePack

/-! ## Numbers in bytes -/

@[simp] theorem length_bigEndian (width n : Nat) : (bigEndian width n).length = width := by
  induction width generalizing n with
  | zero => rfl
  | succ width ih => rw [bigEndian, List.length_append, ih, List.length_singleton]

private theorem ofBigEndian_concat (bytes : Bytes) (byte : UInt8) :
    ofBigEndian (bytes ++ [byte]) = 256 * ofBigEndian bytes + byte.toNat := by
  rw [ofBigEndian, List.foldl_append]
  rfl

/-- Bytes read back as the number that they were made of, if it has no more of them. -/
theorem ofBigEndian_bigEndian {width n : Nat} (small : n < 256 ^ width) :
    ofBigEndian (bigEndian width n) = n := by
  induction width generalizing n with
  | zero =>
      obtain rfl := Nat.lt_one_iff.mp small
      rfl
  | succ width ih =>
      have high : n / 256 < 256 ^ width := Nat.div_lt_of_lt_mul (by rwa [Nat.pow_succ'] at small)
      have low : (UInt8.ofNat (n % 256)).toNat = n % 256 := by
        rw [UInt8.toNat_ofNat', Nat.mod_mod_of_dvd _ (Nat.dvd_refl _)]
      rw [bigEndian, ofBigEndian_concat, ih high, low, Nat.div_add_mod]

/-- A negative number reads back from its two's complement, if that has room for it. -/
theorem ofSigned_bigEndian {width : Nat} {n : Int} (negative : n < 0)
    (large : 0 ≤ 2 * n + (256 ^ width : Nat)) :
    ofSigned (bigEndian width (n + (256 ^ width : Nat)).toNat) = n := by
  have small : (n + (256 ^ width : Nat)).toNat < 256 ^ width := by omega
  have upper : ¬ 2 * (n + (256 ^ width : Nat)).toNat < 256 ^ width := by omega
  simp only [ofSigned, length_bigEndian, ofBigEndian_bigEndian small, Nat.pow_eq, if_neg upper]
  omega

/-- Taking as many bytes as are in front takes these. -/
theorem takeBytes_append {bytes : Bytes} {count : Nat} (length : bytes.length = count)
    (rest : Bytes) : takeBytes count (bytes ++ rest) = some (bytes, rest) := by
  subst length
  rw [takeBytes, if_pos (by rw [List.length_append]; exact Nat.le_add_right ..), List.splitAt_eq,
    List.take_left, List.drop_left]

/-- What is written behind the first tag whose width suffices, if there is one. -/
theorem exists_tag {write : List (Nat × UInt8) → Bytes} {fits : Nat → Prop} [DecidablePred fits]
    {shown : Nat → Nat}
    (step : ∀ width tag wider, write ((width, tag) :: wider) =
      if fits width then tag :: bigEndian width (shown width) else write wider)
    {tags : List (Nat × UInt8)} (enough : ∃ entry ∈ tags, fits entry.1) :
    ∃ width tag, (width, tag) ∈ tags ∧ fits width ∧
      write tags = tag :: bigEndian width (shown width) := by
  induction tags with
  | nil =>
      obtain ⟨_, none, _⟩ := enough
      cases none
  | cons entry wider ih =>
      obtain ⟨width, tag⟩ := entry
      by_cases here : fits width
      · exact ⟨width, tag, List.mem_cons_self, here, (step ..).trans (if_pos here)⟩
      · obtain ⟨entry, member, there⟩ := enough
        have later : entry ∈ wider := by
          refine (List.mem_cons.mp member).resolve_left ?_
          rintro rfl
          exact here there
        obtain ⟨other, otherTag, among, others, written⟩ := ih ⟨entry, later, there⟩
        exact ⟨other, otherTag, List.mem_cons_of_mem _ among, others,
          ((step ..).trans (if_neg here)).trans written⟩

/-- A number is written behind the tag of a width that it fits. -/
theorem encodeTagged_eq {n : Nat} (tags : List (Nat × UInt8))
    (enough : ∃ entry ∈ tags, n < 256 ^ entry.1) : ∃ width tag, (width, tag) ∈ tags ∧
      n < 256 ^ width ∧ encodeTagged n tags = tag :: bigEndian width n :=
  exists_tag (fun _ _ _ => rfl) enough

/-- A negative number is written behind the tag of a width whose two's complement it fits. -/
theorem encodeNegative_eq {n : Int} (tags : List (Nat × UInt8))
    (enough : ∃ entry ∈ tags, 0 ≤ 2 * n + (256 ^ entry.1 : Nat)) :
    ∃ width tag, (width, tag) ∈ tags ∧ 0 ≤ 2 * n + (256 ^ width : Nat) ∧
      encodeNegative n tags = tag :: bigEndian width (n + (256 ^ width : Nat)).toNat :=
  exists_tag (fun _ _ _ => rfl) enough

/-! ## Lengths -/

/-- How the first byte tells a length that is written in a format. -/
structure LengthFormat.Leads (format : LengthFormat) (lead : Length → Lead) : Prop where
  known : ∀ n < format.fixLimit,
    Lead.ofByte? (UInt8.ofNat (format.fixBase + n)) = some (lead (.known n))
  counted : ∀ {width tag}, (width, tag) ∈ format.tags →
    Lead.ofByte? tag = some (lead (.counted width))
  enough : ∃ entry ∈ format.tags, entry.1 = 4

/-- A marker byte carries a small length that is read off it again. -/
theorem toNat_ofNat_add {base limit n : Nat} (small : n < limit) (room : base + limit ≤ 256) :
    (UInt8.ofNat (base + n)).toNat = base + n :=
  UInt8.toNat_ofNat_of_lt (Nat.lt_of_lt_of_le (Nat.add_lt_add_left small base) room)

private theorem leads_string : stringLength.Leads .string where
  known n small := by
    change n < 32 at small
    simp only [stringLength, Lead.ofByte?, toNat_ofNat_add small (by decide : 0xa0 + 32 ≤ 256)]
    rw [if_neg (by omega), if_neg (by omega), if_neg (by omega), if_pos (by omega),
      Nat.add_sub_cancel_left]
  counted {width tag} member := by
    simp only [stringLength, List.mem_cons, Prod.mk.injEq, List.not_mem_nil, or_false] at member
    obtain ⟨rfl, rfl⟩ | ⟨rfl, rfl⟩ | ⟨rfl, rfl⟩ := member <;> rfl
  enough := ⟨(4, 0xdb), by decide, rfl⟩

private theorem leads_array : arrayLength.Leads .array where
  known n small := by
    change n < 16 at small
    simp only [arrayLength, Lead.ofByte?, toNat_ofNat_add small (by decide : 0x90 + 16 ≤ 256)]
    rw [if_neg (by omega), if_neg (by omega), if_pos (by omega), Nat.add_sub_cancel_left]
  counted {width tag} member := by
    simp only [arrayLength, List.mem_cons, Prod.mk.injEq, List.not_mem_nil, or_false] at member
    obtain ⟨rfl, rfl⟩ | ⟨rfl, rfl⟩ := member <;> rfl
  enough := ⟨(4, 0xdd), by decide, rfl⟩

private theorem leads_map : mapLength.Leads .map where
  known n small := by
    change n < 16 at small
    simp only [mapLength, Lead.ofByte?, toNat_ofNat_add small (by decide : 0x80 + 16 ≤ 256)]
    rw [if_neg (by omega), if_pos (by omega), Nat.add_sub_cancel_left]
  counted {width tag} member := by
    simp only [mapLength, List.mem_cons, Prod.mk.injEq, List.not_mem_nil, or_false] at member
    obtain ⟨rfl, rfl⟩ | ⟨rfl, rfl⟩ := member <;> rfl
  enough := ⟨(4, 0xdf), by decide, rfl⟩

private theorem leads_binary : binaryLength.Leads .binary where
  known n small := absurd small (Nat.not_lt_zero n)
  counted {width tag} member := by
    simp only [binaryLength, List.mem_cons, Prod.mk.injEq, List.not_mem_nil, or_false] at member
    obtain ⟨rfl, rfl⟩ | ⟨rfl, rfl⟩ | ⟨rfl, rfl⟩ := member <;> rfl
  enough := ⟨(4, 0xc6), by decide, rfl⟩

private theorem leads_extension : extensionLength.Leads .extension where
  known n small := absurd small (Nat.not_lt_zero n)
  counted {width tag} member := by
    simp only [extensionLength, List.mem_cons, Prod.mk.injEq, List.not_mem_nil, or_false] at member
    obtain ⟨rfl, rfl⟩ | ⟨rfl, rfl⟩ | ⟨rfl, rfl⟩ := member <;> rfl
  enough := ⟨(4, 0xc9), by decide, rfl⟩

/-- A length of up to four bytes is told by the first byte, or by the bytes behind it. -/
theorem LengthFormat.Leads.encode {format : LengthFormat} {lead : Length → Lead}
    (leads : format.Leads lead) {n : Nat} (small : n < 2 ^ 32) :
    ∃ byte bytes length, format.encode n = byte :: bytes ∧
      Lead.ofByte? byte = some (lead length) ∧
      ∀ rest, length.decode (bytes ++ rest) = some (n, rest) := by
  unfold LengthFormat.encode
  by_cases fixed : n < format.fixLimit
  · exact ⟨_, [], .known n, if_pos fixed, leads.known n fixed, fun _ => rfl⟩
  · obtain ⟨entry, member, isFour⟩ := leads.enough
    obtain ⟨width, tag, among, fits, written⟩ :=
      encodeTagged_eq format.tags ⟨entry, member, by rw [isFour]; exact small⟩
    refine ⟨tag, bigEndian width n, .counted width, (if_neg fixed).trans written,
      leads.counted among, fun rest => ?_⟩
    rw [Length.decode, takeBytes_append (length_bigEndian width n)]
    exact congrArg (fun count => some (count, rest)) (ofBigEndian_bigEndian fits)

/-! ## Items -/

mutual

/-- Whether an item can be written: numbers have up to eight bytes, lengths up to four. -/
def Item.Fits : Item → Prop
  | .nil | .bool _ | .single _ | .double _ => True
  | .int n => -2 ^ 63 ≤ n ∧ n < 2 ^ 64
  | .string utf8 => utf8.length < 2 ^ 32
  | .binary bytes | .extension _ bytes => bytes.length < 2 ^ 32
  | .array items => items.length < 2 ^ 32 ∧ Item.AllFit items
  | .map entries => entries.length < 2 ^ 32 ∧ Item.EntriesFit entries

/-- All items fit their formats. -/
def Item.AllFit : List Item → Prop
  | [] => True
  | item :: rest => item.Fits ∧ Item.AllFit rest

/-- All keys and values fit their formats. -/
def Item.EntriesFit : List (Item × Item) → Prop
  | [] => True
  | (key, value) :: rest => key.Fits ∧ value.Fits ∧ Item.EntriesFit rest

end

/-- An item is read back from its bytes, if it may be nested as deep as it has bytes. -/
def Item.ReadsBack (item : Item) : Prop :=
  ∀ (depth : Nat) (rest : Bytes), item.encode.length ≤ depth →
    decodeNested depth (item.encode ++ rest) = some (item, rest)

/-- An item is read back if its first byte tells how to read the others. -/
theorem Item.readsBack_of_lead {item : Item} {byte : UInt8} (bytes : Bytes) (lead : Lead)
    (written : item.encode = byte :: bytes) (isLead : Lead.ofByte? byte = some lead)
    (reads : ∀ (depth : Nat) (rest : Bytes), bytes.length ≤ depth →
      lead.decode (decodeNested depth) (bytes ++ rest) = some (item, rest)) : item.ReadsBack := by
  intro depth rest deep
  rw [written] at deep ⊢
  cases depth with
  | zero => cases deep
  | succ depth =>
      rw [List.cons_append, decodeNested, isLead]
      exact reads depth rest (Nat.le_of_succ_le_succ deep)

/-- A natural number of up to eight bytes. -/
theorem Item.readsBack_nat {n : Nat} (high : n < 2 ^ 64) : (Item.int n).ReadsBack := by
  have written : (Item.int n).encode = encodeInt n := by rw [Item.encode]
  rw [encodeInt, if_pos (Int.natCast_nonneg n), Int.toNat_natCast] at written
  by_cases small : (n : Int) < 128
  · -- The first byte is the number.
    rw [if_pos small] at written
    refine Item.readsBack_of_lead [] (.whole (.int n)) written ?_ fun _ _ _ => rfl
    have value : (UInt8.ofNat n).toNat = n := UInt8.toNat_ofNat_of_lt (by
      change n < 256
      omega)
    simp only [Lead.ofByte?, value]
    rw [if_pos (by omega)]
  · rw [if_neg small] at written
    obtain ⟨width, tag, among, fits, tagged⟩ := encodeTagged_eq
      [(1, 0xcc), (2, 0xcd), (4, 0xce), (8, 0xcf)] ⟨(8, 0xcf), by decide, high⟩
    refine Item.readsBack_of_lead _ (.unsigned width) (written.trans tagged) ?_
      fun _ rest _ => ?_
    · simp only [List.mem_cons, Prod.mk.injEq, List.not_mem_nil, or_false] at among
      obtain ⟨rfl, rfl⟩ | ⟨rfl, rfl⟩ | ⟨rfl, rfl⟩ | ⟨rfl, rfl⟩ := among <;> rfl
    · rw [Lead.decode, takeBytes_append (length_bigEndian width n)]
      exact congrArg (fun m : Nat => some (Item.int m, rest)) (ofBigEndian_bigEndian fits)

/-- A negative number of up to eight bytes. -/
theorem Item.readsBack_negative {n : Int} (negative : n < 0) (low : -2 ^ 63 ≤ n) :
    (Item.int n).ReadsBack := by
  have written : (Item.int n).encode = encodeInt n := by rw [Item.encode]
  rw [encodeInt, if_neg (Int.not_le.mpr negative)] at written
  by_cases small : -32 ≤ n
  · -- The first byte is the number in two's complement.
    rw [if_pos small] at written
    refine Item.readsBack_of_lead [] (.whole (.int n)) written ?_ fun _ _ _ => rfl
    have value : (UInt8.ofNat (n + 256).toNat).toNat = (n + 256).toNat :=
      UInt8.toNat_ofNat_of_lt (by
        change (n + 256).toNat < 256
        omega)
    have same : (((n + 256).toNat : Nat) : Int) - 256 = n := by omega
    simp only [Lead.ofByte?, value]
    rw [if_neg (by omega), if_neg (by omega), if_neg (by omega), if_neg (by omega),
      if_pos (by omega), same]
  · rw [if_neg small] at written
    obtain ⟨width, tag, among, large, tagged⟩ := encodeNegative_eq
      [(1, 0xd0), (2, 0xd1), (4, 0xd2), (8, 0xd3)]
      ⟨(8, 0xd3), by decide, by change 0 ≤ 2 * n + 2 ^ 64; omega⟩
    refine Item.readsBack_of_lead _ (.signed width) (written.trans tagged) ?_
      fun _ rest _ => ?_
    · simp only [List.mem_cons, Prod.mk.injEq, List.not_mem_nil, or_false] at among
      obtain ⟨rfl, rfl⟩ | ⟨rfl, rfl⟩ | ⟨rfl, rfl⟩ | ⟨rfl, rfl⟩ := among <;> rfl
    · rw [Lead.decode, takeBytes_append (length_bigEndian ..)]
      exact congrArg (fun m => some (Item.int m, rest)) (ofSigned_bigEndian negative large)

/-- Things one after the other are read back, each after those before it. -/
theorem decodeMany_cons {α : Type} {read : Bytes → Option (α × Bytes)} {count : Nat} {first : α}
    {others : List α} {bytes mid rest : Bytes} (reads : read bytes = some (first, mid))
    (readsOthers : decodeMany read count mid = some (others, rest)) :
    decodeMany read (count + 1) bytes = some (first :: others, rest) := by
  simp only [decodeMany, reads, readsOthers, Option.bind_eq_bind, Option.bind_some,
    Option.pure_def]

mutual

/-- An item that can be written is read back. -/
theorem Item.readsBack : (item : Item) → item.Fits → item.ReadsBack
  | .nil, _ => Item.readsBack_of_lead [] (.whole .nil) (by rw [Item.encode]) rfl
      fun _ _ _ => rfl
  | .bool false, _ => Item.readsBack_of_lead [] (.whole (.bool false))
      (by rw [Item.encode, if_neg Bool.false_ne_true]) rfl fun _ _ _ => rfl
  | .bool true, _ => Item.readsBack_of_lead [] (.whole (.bool true))
      (by rw [Item.encode, if_pos rfl]) rfl fun _ _ _ => rfl
  | .int n, fits => by
      simp only [Item.Fits] at fits
      rcases Int.lt_or_le n 0 with negative | positive
      · exact Item.readsBack_negative negative fits.1
      · obtain ⟨n, rfl⟩ := Int.eq_ofNat_of_zero_le positive
        exact Item.readsBack_nat (by omega)
  | .single bits, _ => by
      refine Item.readsBack_of_lead _ .single (by rw [Item.encode]) rfl fun _ rest _ => ?_
      have value : ofBigEndian (bigEndian 4 bits.toNat) = bits.toNat :=
        ofBigEndian_bigEndian (show bits.toNat < 256 ^ 4 from bits.toNat_lt)
      simp only [Lead.decode, takeBytes_append (length_bigEndian ..), Option.bind_eq_bind,
        Option.bind_some, value, UInt32.ofNat_toNat, Option.pure_def]
  | .double bits, _ => by
      refine Item.readsBack_of_lead _ .double (by rw [Item.encode]) rfl fun _ rest _ => ?_
      have value : ofBigEndian (bigEndian 8 bits.toNat) = bits.toNat :=
        ofBigEndian_bigEndian (show bits.toNat < 256 ^ 8 from bits.toNat_lt)
      simp only [Lead.decode, takeBytes_append (length_bigEndian ..), Option.bind_eq_bind,
        Option.bind_some, value, UInt64.ofNat_toNat, Option.pure_def]
  | .string utf8, fits => by
      rw [Item.Fits] at fits
      obtain ⟨byte, bytes, length, written, isLead, counts⟩ := leads_string.encode fits
      refine Item.readsBack_of_lead (bytes ++ utf8) _ ?_ isLead fun _ rest _ => ?_
      · rw [Item.encode, written, List.cons_append]
      · simp only [Lead.decode, List.append_assoc, counts, Option.bind_eq_bind, Option.bind_some,
          takeBytes_append, Option.pure_def]
  | .binary utf8, fits => by
      rw [Item.Fits] at fits
      obtain ⟨byte, bytes, length, written, isLead, counts⟩ := leads_binary.encode fits
      refine Item.readsBack_of_lead (bytes ++ utf8) _ ?_ isLead fun _ rest _ => ?_
      · rw [Item.encode, written, List.cons_append]
      · simp only [Lead.decode, List.append_assoc, counts, Option.bind_eq_bind, Option.bind_some,
          takeBytes_append, Option.pure_def]
  | .extension tag content, fits => by
      rw [Item.Fits] at fits
      obtain ⟨byte, bytes, length, written, isLead, counts⟩ := leads_extension.encode fits
      refine Item.readsBack_of_lead (bytes ++ tag :: content) _ ?_ isLead fun _ rest _ => ?_
      · rw [Item.encode, written, List.cons_append]
      · simp only [Lead.decode, List.append_assoc, List.cons_append, counts, Option.bind_eq_bind,
          Option.bind_some, takeBytes_append, Option.pure_def]
  | .array items, fits => by
      rw [Item.Fits] at fits
      obtain ⟨byte, bytes, length, written, isLead, counts⟩ := leads_array.encode fits.1
      refine Item.readsBack_of_lead (bytes ++ Item.encodeAll items) _ ?_ isLead
        fun depth rest deep => ?_
      · rw [Item.encode, written, List.cons_append]
      · rw [List.length_append] at deep
        have reads := Item.readBack_all items fits.2 depth rest (by omega)
        simp only [Lead.decode, List.append_assoc, counts, Option.bind_eq_bind, Option.bind_some,
          reads, Option.pure_def]
  | .map entries, fits => by
      rw [Item.Fits] at fits
      obtain ⟨byte, bytes, length, written, isLead, counts⟩ := leads_map.encode fits.1
      refine Item.readsBack_of_lead (bytes ++ Item.encodeEntries entries) _ ?_ isLead
        fun depth rest deep => ?_
      · rw [Item.encode, written, List.cons_append]
      · rw [List.length_append] at deep
        have reads := Item.readBack_entries entries fits.2 depth rest (by omega)
        simp only [Lead.decode, List.append_assoc, counts, Option.bind_eq_bind, Option.bind_some,
          reads, Option.pure_def]

private theorem Item.readBack_all : (items : List Item) → Item.AllFit items →
    ∀ (depth : Nat) (rest : Bytes), (Item.encodeAll items).length ≤ depth →
      decodeMany (decodeNested depth) items.length (Item.encodeAll items ++ rest) =
        some (items, rest)
  | [], _, _, _, _ => by rw [Item.encodeAll]; rfl
  | item :: items, fit, depth, rest, deep => by
      rw [Item.AllFit] at fit
      rw [Item.encodeAll, List.length_append] at deep
      rw [Item.encodeAll, List.append_assoc]
      exact decodeMany_cons (item.readsBack fit.1 depth _ (by omega))
        (Item.readBack_all items fit.2 depth rest (by omega))

private theorem Item.readBack_entries : (entries : List (Item × Item)) → Item.EntriesFit entries →
    ∀ (depth : Nat) (rest : Bytes), (Item.encodeEntries entries).length ≤ depth →
      decodeMany (decodePair (decodeNested depth)) entries.length
        (Item.encodeEntries entries ++ rest) = some (entries, rest)
  | [], _, _, _, _ => by rw [Item.encodeEntries]; rfl
  | (key, value) :: entries, fit, depth, rest, deep => by
      rw [Item.EntriesFit] at fit
      rw [Item.encodeEntries, List.length_append, List.length_append] at deep
      rw [Item.encodeEntries, List.append_assoc, List.append_assoc]
      refine decodeMany_cons ?_ (Item.readBack_entries entries fit.2.2 depth rest (by omega))
      simp only [decodePair, key.readsBack fit.1 depth _ (by omega : key.encode.length ≤ depth),
        value.readsBack fit.2.1 depth _ (by omega : value.encode.length ≤ depth),
        Option.bind_eq_bind, Option.bind_some, Option.pure_def]

end

/-- Reading what an item is written as yields the item and what follows it. -/
theorem decode_encode {item : Item} (fits : item.Fits) (rest : Bytes) :
    decode (item.encode ++ rest) = some (item, rest) :=
  item.readsBack fits _ rest (by rw [List.length_append]; exact Nat.le_add_right ..)

end Rete.MessagePack
