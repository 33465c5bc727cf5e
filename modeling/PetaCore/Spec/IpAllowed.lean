import PetaCore.ForStd.IpAddress
import PetaCore.ForStd.Run
import PetaCore.Core.IpWhitelist

/-!
# What the whitelist admits

An entry with a slash is read leniently: the network and the number of bits are what `parseInt`
makes of them, and the shift of the mask wraps around. On well-formed entries this is the block that
they name. An update accepts entries of any form, and an addition those with anything behind the
number of bits; such an entry admits the block that it is read as.

## Key results

- `isIpMatch_iff`: how an entry is compared with an address
- `eq_or_opens_iff_names`: a well-formed entry matches the addresses that it names
- `admitted_iff`: the list in force admits what it says just when no other entry admits more
- `reported_iff`: the reported list admits everybody
-/

namespace PetaCore

open IpAddress Run

/-! ## The numbers -/

/-- Numbers of bits are read as they are. -/
theorem numberOfInt_bits : ∀ n ≤ 32, numberOfInt (n : Nat) = n ∧
    (numberOfInt (32 - (n : Nat)) % 32).toNat = if n = 0 then 0 else 32 - n := by
  decide +kernel

theorem addOctets_cons (n : BitVec 8) (parts : List (List Char)) (result : Int) :
    addOctets ((toString n.toNat).toList :: parts) result =
      addOctets parts ((shiftLeft (BitVec.ofInt 32 result) 8).toInt + n.toNat) := by
  have hn := n.isLt
  rw [addOctets, parseInt_toString]
  exact if_neg (by omega)

theorem ipToNumber_text (x : Ipv4) : ipToNumber x.text.toList = some x.number := by
  have hshift : ∀ (y : BitVec 32) (n : BitVec 8),
      BitVec.ofInt 32 ((shiftLeft y 8).toInt + n.toNat) = (y <<< 8) + n.setWidth 32 := by
    intro y n
    rw [BitVec.ofInt_add, BitVec.ofInt_toInt, BitVec.ofInt_natCast, BitVec.ofNat_toNat]
    rfl
  rw [ipToNumber, Ipv4.splitOn_text, addOctets_cons, addOctets_cons, addOctets_cons, addOctets_cons]
  simp only [List.length_cons, List.length_nil, ne_eq, not_true_eq_false, if_false, addOctets,
    Option.map_some, hshift, Option.some.injEq]
  have hzero : BitVec.ofInt 32 0 = 0 := rfl
  apply BitVec.eq_of_toNat_eq
  have ha := x.a.isLt
  have hb := x.b.isLt
  have hc := x.c.isLt
  have hd := x.d.isLt
  simp only [Ipv4.toNat_number, BitVec.toNat_add, BitVec.toNat_shiftLeft, BitVec.toNat_setWidth,
    hzero, Nat.shiftLeft_eq]
  omega

/-! ## Entries -/

/-- The number of leading bits that count, for the text behind the slash. -/
def leadingBits (bits : List Char) : Nat :=
  match (parseInt bits).map numberOfInt with
  | none => 32
  | some n => if n = 0 then 0 else 32 - (numberOfInt (32 - n) % 32).toNat

/-- An entry with a slash is read as a block that has the address. -/
def Opens (entry : String) (ip : BitVec 32) : Prop :=
  ∃ network bits rest, entry.toList.splitOn '/' = network :: bits :: rest ∧
    (leadingBits bits = 0 ∨ ∃ x, ipToNumber network = some x ∧ Agree (leadingBits bits) x ip)

/-- A well-formed entry that names the address, by itself or by a block of its addresses. -/
inductive Names (client : Ipv4) : String → Prop
  | address : Names client client.text
  | block (network : Ipv4) (n : Nat) (hn : n ≤ 32) (h : Agree n network.number client.number) :
    Names client (network.text ++ "/" ++ toString n)

def WellFormed (entry : String) : Prop :=
  (∃ x : Ipv4, entry = x.text) ∨ ∃ (x : Ipv4) (n : Nat), n ≤ 32 ∧
    entry = x.text ++ "/" ++ toString n

theorem leadingBits_eq_zero_iff (bits : List Char) :
    leadingBits bits = 0 ↔ (parseInt bits).map numberOfInt = some 0 := by
  rw [leadingBits]
  cases (parseInt bits).map numberOfInt with
  | none => simp
  | some n =>
    show (if n = 0 then 0 else 32 - (numberOfInt (32 - n) % 32).toNat) = 0 ↔ some n = some 0
    rw [Option.some.injEq]
    split
    · next hn => simp [hn]
    · next hn =>
      simp only [hn, iff_false]
      omega

theorem leadingBits_toString {n : Nat} (hn : n ≤ 32) : leadingBits (toString n).toList = n := by
  obtain ⟨hread, hcount⟩ := numberOfInt_bits n hn
  rw [leadingBits, parseInt_toString, Option.map_some, hread]
  show (if (n : Int) = 0 then 0 else 32 - (numberOfInt (32 - (n : Int)) % 32).toNat) = n
  rw [hcount]
  by_cases hzero : n = 0
  · rw [if_pos (by omega), hzero]
  · rw [if_neg (by omega), if_neg hzero]
    omega

theorem splitOn_block (x : Ipv4) (n : Nat) : (x.text ++ "/" ++ toString n).toList.splitOn '/' =
    [x.text.toList, (toString n).toList] := by
  have htext : (x.text ++ "/" ++ toString n).toList =
      x.text.toList ++ '/' :: (toString n).toList := by simp
  rw [htext, List.splitOn_append_cons_self,
    List.splitOn_eq_singleton (x.notMem_text (by decide) (by decide)),
    List.splitOn_eq_singleton (Nat.notMem_toString (by decide) n)]
  rfl

theorem opens_block (x : Ipv4) {n : Nat} (hn : n ≤ 32) (ip : BitVec 32) :
    Opens (x.text ++ "/" ++ toString n) ip ↔ Agree n x.number ip := by
  simp only [Opens, splitOn_block, List.cons.injEq]
  constructor
  · rintro ⟨network, bits, rest, ⟨rfl, rfl, -⟩, hread⟩
    rw [leadingBits_toString hn, ipToNumber_text] at hread
    rcases hread with rfl | ⟨y, hy, hagree⟩
    · exact agree_zero _ _
    · rwa [Option.some.inj hy]
  · intro h
    refine ⟨_, _, _, ⟨rfl, rfl, rfl⟩, .inr ⟨x.number, ipToNumber_text x, ?_⟩⟩
    rwa [leadingBits_toString hn]

variable {entry : String}

theorem not_opens_of_notMem (h : '/' ∉ entry.toList) (ip : BitVec 32) :
    ¬ Opens entry ip := by
  rintro ⟨network, bits, rest, hsplit, -⟩
  rw [List.splitOn_eq_singleton h] at hsplit
  cases hsplit

theorem slash_notMem_text (x : Ipv4) : '/' ∉ x.text.toList :=
  x.notMem_text (by decide) (by decide)

variable {client : Ipv4}

theorem Names.eq_or_opens (h : Names client entry) :
    entry = client.text ∨ Opens entry client.number := by
  cases h with
  | address => exact .inl rfl
  | block network n hn hagree => exact .inr ((opens_block network hn _).mpr hagree)

/-- What is behind the slash of an entry that names an address. -/
theorem Names.bits_le (h : Names client entry)
    {network bits : List Char} (hsplit : entry.toList.splitOn '/' = [network, bits]) :
    ∃ n ≤ 32, bits = (toString n).toList := by
  cases h with
  | address =>
    rw [List.splitOn_eq_singleton (slash_notMem_text client)] at hsplit
    cases hsplit
  | block x n hn _ =>
    rw [splitOn_block] at hsplit
    simp only [List.cons.injEq, and_true] at hsplit
    exact ⟨n, hn, hsplit.2.symm⟩

/-- A well-formed entry is read as what it names. -/
theorem eq_or_opens_iff_names (h : WellFormed entry) (client : Ipv4) :
    entry = client.text ∨ Opens entry client.number ↔ Names client entry := by
  refine ⟨?_, Names.eq_or_opens⟩
  rintro (rfl | hopens)
  · exact .address
  · rcases h with ⟨x, rfl⟩ | ⟨x, n, hn, rfl⟩
    · exact absurd hopens (not_opens_of_notMem (slash_notMem_text x) _)
    · exact .block x n hn ((opens_block x hn _).mp hopens)

/-! ## Matching -/

/-- The dotted form of an address and its mapped form. -/
def IsForm (client : Ipv4) (ip : String) : Prop := ip = client.text ∨ ip = "::ffff:" ++ client.text

theorem normalizeIp_of_isForm {ip : String} (h : IsForm client ip) :
    normalizeIp ip = client.text := by
  rcases h with rfl | rfl
  · have hcolon : ':' ∉ client.text.toList := client.notMem_text (by decide) (by decide)
    rw [normalizeIp, if_neg, if_neg]
    · intro heq
      rw [heq] at hcolon
      exact hcolon (by decide)
    · intro hstart
      exact hcolon (hstart.subset (by decide))
  · have hdrop : ("::ffff:" ++ client.text).toList.drop "::ffff:".toList.length =
        client.text.toList := by
      rw [String.toList_append, List.drop_left]
    rw [normalizeIp, if_pos (by rw [String.toList_append]; exact List.prefix_append _ _), hdrop,
      String.ofList_toList]

/-- A mask with the count that `isIpMatch` shifts by compares the leading bits. -/
theorem and_mask_eq_iff {bits : List Char} (x y : BitVec 32)
    (h : (parseInt bits).map numberOfInt ≠ some 0) :
    x &&& shiftLeft 0xffffffff
        ((((parseInt bits).map numberOfInt).map fun n => numberOfInt (32 - n)).getD 0) =
      y &&& shiftLeft 0xffffffff
        ((((parseInt bits).map numberOfInt).map fun n => numberOfInt (32 - n)).getD 0) ↔
    Agree (leadingBits bits) x y := by
  have hones : (0xffffffff : BitVec 32) = BitVec.allOnes 32 := rfl
  rw [shiftLeft, hones, and_shiftLeft_allOnes_eq_iff, leadingBits]
  cases hread : (parseInt bits).map numberOfInt with
  | none => rfl
  | some n =>
    have hn : n ≠ 0 := by
      rintro rfl
      exact h hread
    simp [hn]

theorem isIpMatch_iff {ip : String} (h : IsForm client ip) :
    isIpMatch ip entry = true ↔ entry = client.text ∨ Opens entry client.number := by
  simp only [isIpMatch, normalizeIp_of_isForm h, ipToNumber_text]
  split
  next network bits rest hsplit =>
    have hne : entry ≠ client.text := by
      rintro rfl
      rw [List.splitOn_eq_singleton (slash_notMem_text client)] at hsplit
      cases hsplit
    have hopens : Opens entry client.number ↔ leadingBits bits = 0 ∨
        ∃ x, ipToNumber network = some x ∧ Agree (leadingBits bits) x client.number := by
      simp only [Opens, hsplit, List.cons.injEq]
      constructor
      · rintro ⟨_, _, _, ⟨rfl, rfl, -⟩, hread⟩
        exact hread
      · intro hread
        exact ⟨network, bits, rest, ⟨rfl, rfl, rfl⟩, hread⟩
    rw [or_iff_right hne, hopens, leadingBits_eq_zero_iff]
    by_cases hzero : (parseInt bits).map numberOfInt = some 0
    · simp only [hzero, if_true, true_or]
    · rw [if_neg hzero, or_iff_right hzero]
      cases ipToNumber network with
      | none => simp
      | some x =>
        simp only [beq_iff_eq, and_mask_eq_iff _ _ hzero, Option.some.injEq, exists_eq_left']
        exact agree_comm
  next hsplit =>
    have hclosed : ¬ Opens entry client.number := by
      rintro ⟨network, bits, rest, hread, -⟩
      exact hsplit _ _ _ hread
    rw [or_iff_left hclosed, decide_eq_true_eq, eq_comm]

namespace IpWhitelistState

/-- What the entries of a list say. -/
def Admits (whitelist : List String) (client : Ipv4) : Prop :=
  wildcard ∈ whitelist ∨ ∃ entry ∈ whitelist, Names client entry

theorem isIpAllowed_iff {ip : String} {client : Ipv4} (h : IsForm client ip)
    (whitelist : List String) : isIpAllowed whitelist ip = true ↔
      wildcard ∈ whitelist ∨ ∃ entry ∈ whitelist, entry = client.text ∨
        Opens entry client.number := by
  rw [isIpAllowed]
  split
  · next hmem => simp [hmem]
  · next hmem => simp only [List.any_eq_true, isIpMatch_iff h, hmem, false_or]

/-- The list admits just what it says unless an entry that is not well-formed is read as a block
    with an address that nothing else admits. -/
theorem isIpAllowed_iff_admits_iff {ip : String} {client : Ipv4} (h : IsForm client ip)
    (whitelist : List String) :
    (isIpAllowed whitelist ip = true ↔ Admits whitelist client) ↔
      ∀ entry ∈ whitelist, ¬ WellFormed entry → Opens entry client.number →
        Admits whitelist client := by
  rw [isIpAllowed_iff h]
  constructor
  · intro hiff entry hmem _ hopens
    exact hiff.mp (.inr ⟨entry, hmem, .inr hopens⟩)
  · intro hodd
    constructor
    · rintro (hwild | ⟨entry, hmem, hmatch⟩)
      · exact .inl hwild
      · by_cases hform : WellFormed entry
        · exact .inr ⟨entry, hmem, (eq_or_opens_iff_names hform client).mp hmatch⟩
        · rcases hmatch with rfl | hopens
          · exact absurd (.inl ⟨client, rfl⟩) hform
          · exact hodd entry hmem hform hopens
    · rintro (hwild | ⟨entry, hmem, hnames⟩)
      · exact .inl hwild
      · exact .inr ⟨entry, hmem, hnames.eq_or_opens⟩

/-! ## The list in force -/

/-- What a request leaves in the table. An update takes any texts, an addition only those that pass
    its check. -/
inductive Accepted (s : IpWhitelistState) : IpWhitelistRequest → List String → Prop
  | update (whitelist : List String) : Accepted s (.update (some whitelist)) whitelist
  | add (ips : List String) (h : (IpWhitelistRequest.add (some ips)).check = .ok (.add ips)) :
    Accepted s (.add (some ips)) (s.rows.map (·.ip) ++ ips)

/-- The list that is in force when the table has the entries. -/
def InForce (list whitelist : List String) : Prop :=
  ∀ entry, entry ∈ whitelist ↔ entry ∈ list ∨ (list = [] ∧ entry = wildcard)

/-- How far the call is in putting the entries in force. -/
def Progress (list : List String) (s : IpWhitelistState) : WhitelistStage → Prop
  | .called (.update whitelist) => whitelist = list
  | .called (.add ips) => ∀ entry, entry ∈ s.rows.map (·.ip) ++ ips ↔ entry ∈ list
  | .creating newIps => ∀ entry, entry ∈ s.rows.map (·.ip) ++ newIps ↔ entry ∈ list
  | .created _ | .reloading => ∀ entry, entry ∈ s.rows.map (·.ip) ↔ entry ∈ list
  | .loading records _ => ∀ entry, entry ∈ records.map (·.ip) ↔ entry ∈ list
  | .returned => InForce list s.whitelist
  | _ => False

theorem map_ip_newRows (ips : List String) (nextId : Nat) :
    (newRows ips nextId).map (·.ip) = ips := by
  simp only [newRows, List.map_map]
  exact List.zipIdx_map_fst 0 ips

variable {list : List String}

theorem inForce_whitelistOf {records : List IpWhitelistRow}
    (h : ∀ entry, entry ∈ records.map (·.ip) ↔ entry ∈ list) :
    InForce list (whitelistOf records) := by
  intro entry
  rw [whitelistOf]
  split
  · next hnil =>
    have hlist : list = [] := by
      apply List.eq_nil_iff_forall_not_mem.mpr
      intro e he
      have hmem := (h e).mpr he
      rw [hnil] at hmem
      cases hmem
    simp [hlist]
  · next hne =>
    have hlist : list ≠ [] := by
      obtain ⟨row, hrow⟩ := List.exists_mem_of_ne_nil records hne
      exact List.ne_nil_of_mem ((h row.ip).mp (List.mem_map_of_mem hrow))
    simp [h, hlist]

/-- The entries that an addition leaves out are in the table already. -/
theorem mem_newIps (s : IpWhitelistState) (ips : List String) (entry : String) :
    entry ∈ s.rows.map (·.ip) ++ ips.filter (fun ip => ip ∉ (s.findByIps ips).map (·.ip)) ↔
      entry ∈ s.rows.map (·.ip) ++ ips := by
  have hfound : entry ∈ ips → (entry ∈ (s.findByIps ips).map (·.ip) ↔
      entry ∈ s.rows.map (·.ip)) := by
    intro hmem
    simp only [findByIps, List.mem_map, List.mem_filter, decide_eq_true_eq]
    constructor
    · rintro ⟨row, ⟨hrow, -⟩, hip⟩
      exact ⟨row, hrow, hip⟩
    · rintro ⟨row, hrow, rfl⟩
      exact ⟨row, ⟨hrow, hmem⟩, rfl⟩
  rw [List.mem_append, List.mem_append, List.mem_filter, decide_eq_true_eq]
  constructor
  · rintro (hold | ⟨hmem, -⟩)
    · exact .inl hold
    · exact .inr hmem
  · rintro (hold | hmem)
    · exact .inl hold
    · by_cases hold : entry ∈ s.rows.map (·.ip)
      · exact .inl hold
      · exact .inr ⟨hmem, fun h => hold ((hfound hmem).mp h)⟩

theorem Progress.statement {s s' : IpWhitelistState} {i : Nat}
    {call : WhitelistCall} (hget : s.calls.get? i = some call) (h : Progress list s call.stage)
    (hstep : s.statement i call = some s') :
    ∃ stage, s'.calls.get? i = some ⟨call.origin, stage⟩ ∧ Progress list s' stage := by
  have hput : ∀ next, (s.calls.put i next).get? i = some next := by
    intro next
    rw [Table.get?_put hget, if_pos rfl]
  obtain ⟨origin, stage⟩ := call
  cases stage with
  | called operation =>
    cases hstep
    cases operation with
    | update whitelist =>
      obtain rfl : whitelist = list := h
      refine ⟨.reloading, hput _, fun entry => ?_⟩
      show entry ∈ (newRows whitelist s.nextId).map (·.ip) ↔ entry ∈ whitelist
      rw [map_ip_newRows]
    | add ips =>
      have hnew := mem_newIps s ips
      simp only [begin]
      split
      · next hnil =>
        refine ⟨.reloading, hput _, fun entry => ?_⟩
        rw [← h entry, ← hnew entry, hnil, List.append_nil]
        rfl
      · exact ⟨.creating _, hput _, fun entry => (hnew entry).trans (h entry)⟩
    | delete _ | allowAll | denyAll => cases h
  | creating newIps =>
    cases hstep
    refine ⟨_, hput _, ?_⟩
    simpa [Progress, setStage, createMany, map_ip_newRows] using h
  | created newIps =>
    cases hstep
    exact ⟨_, hput _, h⟩
  | reloading =>
    cases hstep
    refine ⟨_, hput _, fun entry => ?_⟩
    rw [← h entry, findAll]
    exact ((List.perm_insertionSort _ s.rows).map _).mem_iff
  | loading _ _ | returned => cases hstep
  | deleting _ | creatingWildcard | deletingWildcard | rejected _ | failed => cases h

theorem Progress.assign {s s' : IpWhitelistState} {i : Nat}
    {call : WhitelistCall} (hget : s.calls.get? i = some call) (h : Progress list s call.stage)
    (hstep : s.assign i call = some s') :
    ∃ stage, s'.calls.get? i = some ⟨call.origin, stage⟩ ∧ Progress list s' stage := by
  obtain ⟨origin, stage⟩ := call
  cases stage with
  | loading records readAt =>
    cases hstep
    refine ⟨.returned, ?_, inForce_whitelistOf h⟩
    show (s.calls.put i ⟨origin, .returned⟩).get? i = _
    rw [Table.get?_put hget, if_pos rfl]
  | _ => cases hstep

/-- A call that runs by itself, without a failing statement. -/
def Alone (s : IpWhitelistState) (request : IpWhitelistRequest)
    (trs : List (Transition IpWhitelistState IpWhitelistAction)) (s' : IpWhitelistState) : Prop :=
  IsRun step s trs s' ∧
  (∃ acts, trs.map (·.act) = .request request :: acts ∧
    ∀ act ∈ acts, act = .statement s.calls.next ∨ act = .assign s.calls.next) ∧
  s'.calls.get? s.calls.next = some ⟨.admin, .returned⟩

theorem inForce_of_alone {s s' : IpWhitelistState} {request : IpWhitelistRequest}
    {trs : List (Transition IpWhitelistState IpWhitelistAction)}
    (haccepted : Accepted s request list) (h : Alone s request trs s') :
    InForce list s'.whitelist := by
  obtain ⟨hrun, ⟨acts, hacts, halone⟩, hreturned⟩ := h
  obtain ⟨operation, hcheck, hprogress⟩ : ∃ operation, request.check = .ok operation ∧
      ∀ calls, Progress list { s with calls } (.called operation) := by
    cases haccepted with
    | update whitelist => exact ⟨.update list, rfl, fun _ => rfl⟩
    | add ips hcheck => exact ⟨.add ips, hcheck, fun _ _ => Iff.rfl⟩
  cases trs with
  | nil => cases hacts
  | cons tr trs =>
    obtain ⟨hact, hrest⟩ := List.cons.inj hacts
    obtain ⟨rfl, hfirst, hrun⟩ := hrun
    simp only [hact, step, hcheck, Option.some.injEq] at hfirst
    have hstart : ∃ stage, tr.post.calls.get? tr.pre.calls.next = some ⟨.admin, stage⟩ ∧
        Progress list tr.post stage := by
      rw [← hfirst]
      exact ⟨_, Table.get?_add_next _ _, hprogress _⟩
    have hend : ∃ stage, s'.calls.get? tr.pre.calls.next = some ⟨.admin, stage⟩ ∧
        Progress list s' stage := by
      refine IsRun.history_of (G := fun x => x.act ∈ acts) (P := fun _ t =>
        ∃ stage, t.calls.get? tr.pre.calls.next = some ⟨.admin, stage⟩ ∧ Progress list t stage)
        hstart ?_ hrun fun x hx => ?_
      · rintro _ t act t' _ ⟨stage, hget, hp⟩ hstep hmem
        rcases halone act hmem with rfl | rfl
        · exact hp.statement hget (by simpa only [step, hget, Option.bind_some] using hstep)
        · exact hp.assign hget (by simpa only [step, hget, Option.bind_some] using hstep)
      · rw [← hrest]
        exact List.mem_map_of_mem hx
    obtain ⟨stage, hget, hp⟩ := hend
    rw [hreturned, Option.some.injEq, WhitelistCall.mk.injEq] at hget
    rwa [← hget.2] at hp

/-- After an update or an addition the list in force admits just what it says unless an entry that
    is not well-formed is read as a block with an address that nothing else admits. -/
theorem admitted_iff {s s' : IpWhitelistState} {request : IpWhitelistRequest} {list : List String}
    {trs : List (Transition IpWhitelistState IpWhitelistAction)}
    (haccepted : Accepted s request list) (halone : Alone s request trs s') {client : Ipv4}
    {ip : String} (hip : IsForm client ip) :
    InForce list s'.whitelist ∧
      ((isIpAllowed s'.whitelist ip = true ↔ Admits s'.whitelist client) ↔
        ∀ entry ∈ list, ¬ WellFormed entry → Opens entry client.number →
          Admits list client) := by
  have hforce := inForce_of_alone haccepted halone
  refine ⟨hforce, (isIpAllowed_iff_admits_iff hip s'.whitelist).trans ?_⟩
  by_cases hlist : list = []
  · -- the wildcard stands for the empty list
    have hwild : Admits s'.whitelist client := .inl ((hforce wildcard).mpr (.inr ⟨hlist, rfl⟩))
    simp [hwild, hlist]
  · have hmem : ∀ entry, entry ∈ s'.whitelist ↔ entry ∈ list := by
      intro entry
      rw [hforce entry, or_iff_left (fun h => hlist h.1)]
    simp only [Admits, hmem]

/-- A lone call for a network and an entry with too many bits. -/
def oddUpdate : List IpWhitelistAction :=
  [.request (.update (some ["192.168.0.0/16", "10.0.0.0/33"])), .statement 1, .statement 1,
    .assign 1]

theorem alone_oddUpdate : ∃ trs s', Alone (init [] 1 0)
    (.update (some ["192.168.0.0/16", "10.0.0.0/33"])) trs s' ∧
    s'.whitelist = ["192.168.0.0/16", "10.0.0.0/33"] := by
  have hrun : exec step (init [] 1 0) oddUpdate = some
      ((exec step (init [] 1 0) oddUpdate).get (by decide)) := by simp
  refine ⟨_, _, ⟨isRun_trace _ _ _ hrun, ⟨_, map_act_trace _ _ _ hrun, ?_⟩, ?_⟩, ?_⟩
  · decide
  · decide
  · decide

theorem admitted_iff_oddUpdate : ∃ s' : IpWhitelistState,
    s'.whitelist = ["192.168.0.0/16", "10.0.0.0/33"] ∧
    ((isIpAllowed s'.whitelist "::ffff:192.168.7.9" = true ↔
        Admits s'.whitelist ⟨192, 168, 7, 9⟩) ↔
      ∀ entry ∈ ["192.168.0.0/16", "10.0.0.0/33"], ¬ WellFormed entry →
        Opens entry (Ipv4.number ⟨192, 168, 7, 9⟩) →
        Admits ["192.168.0.0/16", "10.0.0.0/33"] ⟨192, 168, 7, 9⟩) := by
  obtain ⟨trs, s', halone, hlist⟩ := alone_oddUpdate
  exact ⟨s', hlist, (admitted_iff (.update _) halone (.inr (by decide))).2⟩

/-- 33 bits are read as one, so that half of all addresses are admitted. -/
theorem oddUpdate_opens : ¬ ∀ (s s' : IpWhitelistState) (request : IpWhitelistRequest)
    (list : List String) (trs : List (Transition IpWhitelistState IpWhitelistAction))
    (client : Ipv4) (ip : String), Accepted s request list → Alone s request trs s' →
    IsForm client ip → (isIpAllowed s'.whitelist ip = true ↔ Admits s'.whitelist client) := by
  intro h
  obtain ⟨trs, s', halone, hlist⟩ := alone_oddUpdate
  have hiff := h _ s' _ _ trs ⟨8, 8, 8, 8⟩ "8.8.8.8" (.update _) halone (.inl (by decide))
  rw [hlist] at hiff
  rcases hiff.mp (by decide +kernel) with hwild | ⟨entry, hmem, hnames⟩
  · revert hwild
    decide
  · simp only [List.mem_cons, List.not_mem_nil, or_false] at hmem
    rcases hmem with rfl | rfl
    · rcases hnames.eq_or_opens with htext | hopens
      · exact absurd htext (by decide)
      · have hagree := (opens_block ⟨192, 168, 0, 0⟩ (by decide : 16 ≤ 32) _).mp hopens
        revert hagree
        decide
    · have hsplit : "10.0.0.0/33".toList.splitOn '/' = ["10.0.0.0".toList, "33".toList] := by
        decide
      obtain ⟨n, hn, hbits⟩ := hnames.bits_le hsplit
      have hthree : n = 33 := Nat.toString_inj (String.toList_injective hbits.symm)
      omega

/-! ## The list that is reported -/

/-- Whatever the table has, the list that is reported admits everybody. -/
theorem wildcard_mem_handleGetIpWhitelist (records : List IpWhitelistRow) :
    wildcard ∈ handleGetIpWhitelist records := by
  simp only [handleGetIpWhitelist]
  split
  · exact List.mem_singleton_self _
  · next hne =>
    split
    · exact List.mem_singleton_self _
    · next hwild =>
      rw [not_not] at hwild
      obtain ⟨ip, hip⟩ := List.exists_mem_of_ne_nil _ hne
      obtain ⟨row, hrow, rfl⟩ := List.mem_map.mp hip
      have hrowWild : row.ip = wildcard := by
        by_contra hother
        have hmem : row ∈ records.filter fun row => row.ip ≠ wildcard := by
          simp [hrow, hother]
        rw [hwild] at hmem
        cases hmem
      rwa [← hrowWild]

theorem isIpAllowed_of_wildcard {whitelist : List String} (h : wildcard ∈ whitelist)
    (ip : String) : isIpAllowed whitelist ip = true := if_pos h

/-- The reported list and the enforced one admit the same address just when the enforced one
    admits it: the condition of `handleGetIpWhitelist` is the wrong way round. -/
theorem reported_iff (records : List IpWhitelistRow) (ip : String) :
    (isIpAllowed (whitelistOf records) ip = true ↔
      isIpAllowed (handleGetIpWhitelist records) ip = true) ↔
    records = [] ∨ (∃ row ∈ records, row.ip = wildcard) ∨
      ∃ row ∈ records, isIpMatch ip row.ip = true := by
  rw [iff_true_right (isIpAllowed_of_wildcard (wildcard_mem_handleGetIpWhitelist records) ip),
    whitelistOf]
  split
  · next hnil =>
    rw [iff_true_left (isIpAllowed_of_wildcard (List.mem_singleton_self _) ip)]
    exact .inl hnil
  · next hne =>
    rw [or_iff_right hne, isIpAllowed]
    split
    · next hmem =>
      obtain ⟨row, hrow, hip⟩ := List.mem_map.mp hmem
      exact iff_of_true rfl (.inl ⟨row, hrow, hip⟩)
    · next hmem =>
      have hother : ¬ ∃ row ∈ records, row.ip = wildcard := by
        rintro ⟨row, hrow, hip⟩
        exact hmem (List.mem_map.mpr ⟨row, hrow, hip⟩)
      rw [or_iff_right hother, List.any_map, List.any_eq_true]
      rfl

/-- One stored network, which is enforced but not reported. -/
theorem network_not_reported : ¬ ∀ (records : List IpWhitelistRow) (ip : String),
    (isIpAllowed (whitelistOf records) ip = true ↔
      isIpAllowed (handleGetIpWhitelist records) ip = true) := by
  intro h
  have hiff := h [⟨1, "10.0.0.0/8"⟩] "192.168.0.1"
  revert hiff
  decide +kernel

end IpWhitelistState

end PetaCore
