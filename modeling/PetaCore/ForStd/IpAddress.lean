import PetaCore.ForStd.Segments

/-!
# IP addresses and their blocks

A block of addresses is given by an address and a number of bits: it has the addresses that begin
with the same bits. IPv4 addresses are written as four numbers with dots between them, IPv6
addresses as eight groups of hex digits, of which one run of zeros may be left out and the last two
may be written as an IPv4 address.

- `Agree`: two addresses are in the same block
- `and_shiftLeft_allOnes_eq_iff`: the mask of a block compares just these bits
- `Ipv4`: the addresses with their texts and numbers
- `read`: the address of a text, and `read_toLower`, `read_bracket`: what it does not depend on
- `Embeds`: the IPv4 addresses that an IPv6 address stands for
-/

namespace IpAddress

/-! ## Blocks -/

variable {w : Nat}

/-- The first `n` bits are the same. -/
def Agree (n : Nat) (x y : BitVec w) : Prop := ∀ i < n, x.getMsbD i = y.getMsbD i

instance (n : Nat) (x y : BitVec w) : Decidable (Agree n x y) :=
  inferInstanceAs (Decidable (∀ i < n, x.getMsbD i = y.getMsbD i))

@[simp] theorem agree_zero (x y : BitVec w) : Agree 0 x y := by
  intro i hi
  omega

theorem agree_comm {n : Nat} {x y : BitVec w} : Agree n x y ↔ Agree n y x :=
  ⟨fun h i hi => (h i hi).symm, fun h i hi => (h i hi).symm⟩

/-- Addresses that are compared under a mask are compared in their first bits. -/
theorem and_shiftLeft_allOnes_eq_iff (x y : BitVec w) (s : Nat) :
    x &&& (BitVec.allOnes w <<< s) = y &&& (BitVec.allOnes w <<< s) ↔ Agree (w - s) x y := by
  have hmask : ∀ i, (BitVec.allOnes w <<< s).getMsbD i = decide (i < w - s) := by
    intro i
    rw [BitVec.getMsbD_shiftLeft, BitVec.getMsbD_allOnes]
    exact decide_eq_decide.mpr (by omega)
  constructor
  · intro h i hi
    have hbit := congrArg (fun z => BitVec.getMsbD z i) h
    simpa only [BitVec.getMsbD_and, hmask, hi, decide_true, Bool.and_true] using hbit
  · intro h
    apply BitVec.eq_of_getMsbD_eq
    intro i _
    rw [BitVec.getMsbD_and, BitVec.getMsbD_and, hmask]
    by_cases hi : i < w - s
    · rw [h i hi]
    · rw [decide_eq_false hi, Bool.and_false, Bool.and_false]

theorem agree_iff_extractLsb' {n m : Nat} (hw : w = m + n) (x y : BitVec w) :
    Agree n x y ↔ x.extractLsb' m n = y.extractLsb' m n := by
  have hbit : ∀ (z : BitVec w) (i : Nat), i < n → z.getMsbD i = (z.extractLsb' m n).getMsbD i := by
    intro z i hi
    simp only [BitVec.getMsbD, BitVec.getLsbD_extractLsb', hi, decide_true, Bool.true_and]
    rw [decide_eq_true (by omega : i < w), decide_eq_true (by omega : n - 1 - i < n),
      Bool.true_and, Bool.true_and]
    congr 1
    omega
  constructor
  · intro h
    apply BitVec.eq_of_getMsbD_eq
    intro i hi
    rw [← hbit x i hi, ← hbit y i hi, h i hi]
  · intro h i hi
    rw [hbit x i hi, hbit y i hi, h]

/-- Some block of the list has the address. -/
def Within (ranges : List (BitVec w × Nat)) (x : BitVec w) : Prop := ∃ r ∈ ranges, Agree r.2 r.1 x

instance (ranges : List (BitVec w × Nat)) (x : BitVec w) : Decidable (Within ranges x) :=
  inferInstanceAs (Decidable (∃ r ∈ ranges, Agree r.2 r.1 x))

/-- Blocks that differ in a bit that both give have no address in common. -/
theorem not_within_of_apart {ranges others : List (BitVec w × Nat)}
    (hapart : ∀ r ∈ ranges, ∀ s ∈ others, ¬ Agree (min r.2 s.2) r.1 s.1) {x : BitVec w}
    (h : Within ranges x) : ¬ Within others x := by
  obtain ⟨r, hr, hrx⟩ := h
  rintro ⟨s, hs, hsx⟩
  apply hapart r hr s hs
  intro i hi
  rw [hrx i (by omega), hsx i (by omega)]

/-! ## IPv4 -/

structure Ipv4 where
  a : BitVec 8
  b : BitVec 8
  c : BitVec 8
  d : BitVec 8
deriving DecidableEq

namespace Ipv4

def text (x : Ipv4) : String :=
  toString x.a.toNat ++ "." ++ toString x.b.toNat ++ "." ++ toString x.c.toNat ++ "." ++
    toString x.d.toNat

def number (x : Ipv4) : BitVec 32 := x.a ++ x.b ++ x.c ++ x.d

theorem toNat_append_byte (x : BitVec w) (n : BitVec 8) :
    (x ++ n).toNat = x.toNat * 256 + n.toNat := by
  rw [BitVec.toNat_append, Nat.shiftLeft_eq, Nat.mul_comm,
    ← Nat.two_pow_add_eq_or_of_lt n.isLt, Nat.mul_comm]

theorem toNat_number (x : Ipv4) : x.number.toNat =
    ((x.a.toNat * 256 + x.b.toNat) * 256 + x.c.toNat) * 256 + x.d.toNat := by
  rw [number, toNat_append_byte, toNat_append_byte, toNat_append_byte]

/-- The numbers of a text, as their digits. -/
theorem splitOn_text (x : Ipv4) : x.text.toList.splitOn '.' =
    [(toString x.a.toNat).toList, (toString x.b.toNat).toList, (toString x.c.toNat).toList,
      (toString x.d.toNat).toList] := by
  have hdot : ∀ n : Nat, '.' ∉ (toString n).toList := Nat.notMem_toString (by decide)
  have htext : x.text.toList = (toString x.a.toNat).toList ++ '.' :: ((toString x.b.toNat).toList ++
      '.' :: ((toString x.c.toNat).toList ++ '.' :: (toString x.d.toNat).toList)) := by
    simp [text]
  rw [htext, List.splitOn_append_cons_self, List.splitOn_append_cons_self,
    List.splitOn_append_cons_self, List.splitOn_eq_singleton (hdot _),
    List.splitOn_eq_singleton (hdot _), List.splitOn_eq_singleton (hdot _),
    List.splitOn_eq_singleton (hdot _)]
  rfl

/-- A text has digits and dots only. -/
theorem notMem_text {c : Char} (hdigit : c.isDigit = false) (hdot : c ≠ '.') (x : Ipv4) :
    c ∉ x.text.toList := by
  have hnumber : ∀ n : Nat, c ∉ (toString n).toList := Nat.notMem_toString hdigit
  have hsep : c ∉ ".".toList := by simpa using hdot
  simp only [text, String.toList_append, List.mem_append, not_or]
  exact ⟨⟨⟨⟨⟨⟨hnumber _, hsep⟩, hnumber _⟩, hsep⟩, hnumber _⟩, hsep⟩, hnumber _⟩

end Ipv4

/-! ## Reading -/

/-- The byte with these digits. -/
def readOctet (digits : List Char) : Option (BitVec 8) :=
  ((List.range 256).find? fun n => Nat.toDigits 10 n = digits).map (BitVec.ofNat 8)

def readIpv4 (text : List Char) : Option Ipv4 :=
  match text.splitOn '.' with
  | [a, b, c, d] =>
    (readOctet a).bind fun a => (readOctet b).bind fun b => (readOctet c).bind fun c =>
      (readOctet d).map fun d => ⟨a, b, c, d⟩
  | _ => none

/-- The value of a hex digit in lower case. -/
def hexValue (c : Char) : Option Nat :=
  if c.isDigit then some (c.toNat - '0'.toNat)
  else if 'a' ≤ c ∧ c ≤ 'f' then some (c.toNat - 'a'.toNat + 10)
  else none

def readGroup (digits : List Char) : Option (BitVec 16) :=
  if digits = [] ∨ 4 < digits.length then none
  else (digits.mapM hexValue).map fun ds => BitVec.ofNat 16 (ds.foldl (fun n d => 16 * n + d) 0)

/-- The groups of the end of an address, where the last segment may be an IPv4 address. -/
def readSegments : List (List Char) → Option (List (BitVec 16))
  | [] => some []
  | [s] =>
    match readGroup s with
    | some g => some [g]
    | none => (readIpv4 s).map fun x => [x.a ++ x.b, x.c ++ x.d]
  | s :: ss => (readGroup s).bind fun g => (readSegments ss).map (g :: ·)

/-- The text before the first `::` and the text behind it. -/
def splitDouble : List Char → Option (List Char × List Char)
  | [] | [_] => none
  | c :: d :: cs =>
    if c = ':' ∧ d = ':' then some ([], cs)
    else (splitDouble (d :: cs)).map fun p => (c :: p.1, p.2)

def segments (text : List Char) : List (List Char) := if text = [] then [] else text.splitOn ':'

def joinGroups (groups : List (BitVec 16)) : BitVec 128 :=
  groups.foldl (fun n g => n <<< 16 ||| g.setWidth 128) 0

def readIpv6 (text : List Char) : Option (BitVec 128) :=
  match splitDouble text with
  | none =>
    (readSegments (segments text)).bind fun gs =>
      if gs.length = 8 then some (joinGroups gs) else none
  | some (before, after) =>
    ((segments before).mapM readGroup).bind fun ls => (readSegments (segments after)).bind fun rs =>
      if ls.length + rs.length ≤ 7 then
        some (joinGroups (ls ++ List.replicate (8 - (ls.length + rs.length)) 0 ++ rs))
      else none

def isZoneChar (c : Char) : Bool := c.isDigit || c.isLower || c = '-' || c = '.' || c = ':'

/-- The text without the name of a zone behind it. -/
def withoutZone (text : List Char) : Option (List Char) :=
  match text.splitOn '%' with
  | [address] => some address
  | [address, zone] => if zone ≠ [] ∧ zone.all isZoneChar = true then some address else none
  | _ => none

inductive Address where
  | ipv4 (x : BitVec 32)
  | ipv6 (x : BitVec 128)
deriving DecidableEq

def readLower (text : List Char) : Option Address :=
  match readIpv4 text with
  | some x => some (.ipv4 x.number)
  | none => ((withoutZone text).bind readIpv6).map .ipv6

/-- The address of a text, in which letters count in either case. -/
def read (text : String) : Option Address := readLower (text.toList.map Char.toLower)

theorem toLower_toLower (c : Char) : c.toLower.toLower = c.toLower := by
  by_cases h : c.val ≥ 'A'.val ∧ c.val ≤ 'Z'.val
  · have hval : c.toLower.val.toNat = c.val.toNat + 32 := by
      obtain ⟨hlo, hhi⟩ := h
      have hhi' : c.val.toNat ≤ 90 := hhi
      have hself : c.toLower.val = c.val + 32 := congrArg Char.val (dif_pos ⟨hlo, hhi⟩)
      rw [hself]
      rw [UInt32.toNat_add]
      show (c.val.toNat + 32) % 2 ^ 32 = c.val.toNat + 32
      omega
    have hlo : 65 ≤ c.val.toNat := h.1
    refine dif_neg fun hupper => ?_
    have hhi : c.toLower.val.toNat ≤ 90 := hupper.2
    omega
  · have hself : c.toLower = c := dif_neg h
    rw [hself, hself]

/-- Letters count in either case. -/
theorem read_toLower (text : String) : read text.toLower = read text := by
  have hcomp : Char.toLower ∘ Char.toLower = Char.toLower := funext toLower_toLower
  show readLower ((text.map Char.toLower).toList.map Char.toLower) = _
  rw [String.toList_map, List.map_map, hcomp, read]

/-- A text with something else than the separator in front has it in front of its first segment. -/
theorem splitOn_cons {c sep : Char} (h : c ≠ sep) (cs : List Char) :
    ∃ s ss, (c :: cs).splitOn sep = (c :: s) :: ss := by
  rw [List.splitOn_eq_splitOnP, List.splitOnP_cons_eq_if_modifyHead, if_neg (by simpa using h)]
  cases hsplit : cs.splitOnP (· == sep) with
  | nil => exact absurd hsplit (List.splitOnP_ne_nil _ _)
  | cons s ss => exact ⟨s, ss, rfl⟩

theorem readOctet_bracket (cs : List Char) : readOctet ('[' :: cs) = none := by
  rw [readOctet, Option.map_eq_none_iff, List.find?_eq_none]
  intro n _ hdigits
  have hmem : '[' ∈ Nat.toDigits 10 n := by
    rw [of_decide_eq_true hdigits]
    exact List.mem_cons_self
  have hdigit := Nat.isDigit_of_mem_toDigits (by decide) (by decide) hmem
  revert hdigit
  decide

theorem readIpv4_bracket (cs : List Char) : readIpv4 ('[' :: cs) = none := by
  obtain ⟨s, ss, hsplit⟩ := splitOn_cons (by decide : '[' ≠ '.') cs
  rw [readIpv4, hsplit]
  split
  · next heq =>
    obtain ⟨rfl, -⟩ := List.cons.inj heq
    rw [readOctet_bracket, Option.bind_none]
  · rfl

theorem readGroup_bracket (cs : List Char) : readGroup ('[' :: cs) = none := by
  have hvalue : hexValue '[' = none := by decide
  rw [readGroup]
  split
  · rfl
  · rw [List.mapM_cons, hvalue]
    rfl

theorem readSegments_bracket (s : List Char) (ss : List (List Char)) :
    readSegments (('[' :: s) :: ss) = none := by
  cases ss with
  | nil => simp only [readSegments, readGroup_bracket, readIpv4_bracket, Option.map_none]
  | cons s' ss => simp only [readSegments, readGroup_bracket, Option.bind_none]

theorem segments_bracket (cs : List Char) : ∃ s ss, segments ('[' :: cs) = ('[' :: s) :: ss := by
  rw [segments, if_neg (List.cons_ne_nil _ _)]
  exact splitOn_cons (by decide) cs

/-- What is before the first `::` has the bracket in front. -/
theorem splitDouble_bracket (cs : List Char) : splitDouble ('[' :: cs) = none ∨
    ∃ before after, splitDouble ('[' :: cs) = some ('[' :: before, after) := by
  cases cs with
  | nil => exact Or.inl rfl
  | cons d cs =>
    rw [splitDouble, if_neg (by rintro ⟨h, -⟩; revert h; decide)]
    cases splitDouble (d :: cs) with
    | none => exact Or.inl rfl
    | some p => exact Or.inr ⟨p.1, p.2, rfl⟩

theorem readIpv6_bracket (cs : List Char) : readIpv6 ('[' :: cs) = none := by
  rcases splitDouble_bracket cs with hnone | ⟨before, after, hsome⟩
  · obtain ⟨s, ss, hsplit⟩ := segments_bracket cs
    simp only [readIpv6, hnone, hsplit, readSegments_bracket, Option.bind_none]
  · obtain ⟨s, ss, hsplit⟩ := segments_bracket before
    simp only [readIpv6, hsome, hsplit, List.mapM_cons, readGroup_bracket]
    rfl

/-- No address begins with a bracket. -/
theorem read_bracket (cs : List Char) : read (String.ofList ('[' :: cs)) = none := by
  have hlower : (String.ofList ('[' :: cs)).toList.map Char.toLower =
      '[' :: cs.map Char.toLower := by
    rw [String.toList_ofList]
    rfl
  obtain ⟨s, ss, hsplit⟩ := splitOn_cons (by decide : '[' ≠ '%') (cs.map Char.toLower)
  have hzone : (withoutZone ('[' :: cs.map Char.toLower)).bind readIpv6 = none := by
    rw [withoutZone, hsplit]
    split
    · next heq =>
      obtain ⟨rfl, -⟩ := List.cons.inj heq
      exact readIpv6_bracket s
    · next heq =>
      obtain ⟨rfl, -⟩ := List.cons.inj heq
      split
      · exact readIpv6_bracket s
      · rfl
    · rfl
  rw [read, hlower, readLower, readIpv4_bracket, hzone]
  rfl

/-! ## Embedded addresses -/

/-- The standard ways in which an IPv6 address stands for an IPv4 address. -/
inductive Embeds (x : BitVec 128) : BitVec 32 → Prop
  /-- `::ffff:0:0/96` -/
  | mapped (h : x.extractLsb' 32 96 = 0xffff) : Embeds x (x.extractLsb' 0 32)
  /-- `::/96` -/
  | compatible (h : x.extractLsb' 32 96 = 0) : Embeds x (x.extractLsb' 0 32)
  /-- `64:ff9b::/96` -/
  | nat64 (h : x.extractLsb' 32 96 = 0x64ff9b0000000000000000) : Embeds x (x.extractLsb' 0 32)
  /-- `2002::/16` -/
  | sixToFour (h : x.extractLsb' 112 16 = 0x2002) : Embeds x (x.extractLsb' 80 32)
  /-- `2001::/32`, the server -/
  | teredoServer (h : x.extractLsb' 96 32 = 0x20010000) : Embeds x (x.extractLsb' 64 32)
  /-- `2001::/32`, the client, the address of which is inverted -/
  | teredoClient (h : x.extractLsb' 96 32 = 0x20010000) : Embeds x (~~~ x.extractLsb' 0 32)

end IpAddress
