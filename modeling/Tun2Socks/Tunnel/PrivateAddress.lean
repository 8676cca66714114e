import Mathlib

/-!
# The address of the VPN interface

`selectPrivateAddress` of `Tunnel.java` chooses one of four private addresses for the VPN
interface. It goes through the addresses of the network interfaces and drops a candidate when it
takes an address to be in the candidate's range, and returns the first candidate that is left, in
the order in which the map of candidates is iterated.

An address is compared as text, in dotted-decimal form.

* `10.` and `192.168` are prefixes that only the addresses of the range have
  (`startsWith_ten_iff`, `startsWith_192_168_iff`).
* For the range `172.16.0.0/12` the first six characters are compared with `172.16` and `172.31`, in
  the order of text. Between them there are also `172.2.`, `172.3.` and the six characters of
  `172.160` to `172.255` (`between_iff`).
* Nothing drops the candidate `169.254.1.0/24`.

`select_sound_iff` says for which interfaces the choice is right, whatever the order of iteration.
-/

namespace Tun2Socks.Tunnel

/-! ### Strings of Java -/

/-- A `String`. -/
abbrev JString := List Char

namespace JString

def startsWith (s p : JString) : Bool := p.isPrefixOf s

/-- `substring(0, n)`. -/
def substring (s : JString) (n : ℕ) : JString := s.take n

/-- `compareTo`: the difference of the first characters that differ, or of the lengths. -/
def compareTo : JString → JString → ℤ
  | c :: s, d :: t => if c = d then compareTo s t else (c.toNat : ℤ) - d.toNat
  | s, t => (s.length : ℤ) - t.length

end JString

/-! ### The model -/

/-- `Inet4Address`. -/
structure Inet4Address where
  b0 : Fin 256
  b1 : Fin 256
  b2 : Fin 256
  b3 : Fin 256
  deriving DecidableEq

/-- `InetAddress`. -/
inductive InetAddress
  | inet4 (address : Inet4Address)
  | inet6 (loopback : Bool)
  deriving DecidableEq

def InetAddress.isLoopbackAddress : InetAddress → Bool
  | .inet4 address => address.b0 = 127
  | .inet6 loopback => loopback

/-- An octet in decimal. -/
def octet (b : Fin 256) : JString := Nat.toDigits 10 b

def Inet4Address.getHostAddress (address : Inet4Address) : JString :=
  octet address.b0 ++ '.' :: (octet address.b1 ++ '.' :: (octet address.b2 ++ '.' ::
    octet address.b3))

structure PrivateAddress where
  mIpAddress : JString
  mSubnet : JString
  mPrefixLength : ℕ
  mRouter : JString
  deriving DecidableEq

/-- A network interface, with what `getInetAddresses` returns. -/
abbrev NetworkInterface := List InetAddress

/-- The map of candidates. -/
abbrev Candidates := List (JString × PrivateAddress)

/-- `candidates.remove(key)`. -/
def Candidates.remove (candidates : Candidates) (key : JString) : Candidates :=
  candidates.filter fun candidate => candidate.1 ≠ key

def key10 : JString := ['1', '0']
def key172 : JString := ['1', '7', '2']
def key192 : JString := ['1', '9', '2']
def key169 : JString := ['1', '6', '9']

/-- The address `b0.b1.b2.b3` as text. -/
def dotted (b0 b1 b2 b3 : Fin 256) : JString := Inet4Address.getHostAddress ⟨b0, b1, b2, b3⟩

def address10 : PrivateAddress := ⟨dotted 10 0 0 1, dotted 10 0 0 0, 8, dotted 10 0 0 2⟩
def address172 : PrivateAddress := ⟨dotted 172 16 0 1, dotted 172 16 0 0, 12, dotted 172 16 0 2⟩
def address192 : PrivateAddress := ⟨dotted 192 168 0 1, dotted 192 168 0 0, 16, dotted 192 168 0 2⟩
def address169 : PrivateAddress := ⟨dotted 169 254 1 1, dotted 169 254 1 0, 24, dotted 169 254 1 2⟩

/-- The candidates that are put into the map. -/
def allCandidates : Candidates :=
  [(key10, address10), (key172, address172), (key192, address192), (key169, address169)]

/-- The text is between `172.16` and `172.31`. -/
def between (ipAddress : JString) : Bool :=
  6 ≤ ipAddress.length &&
    (0 ≤ (ipAddress.substring 6).compareTo ['1', '7', '2', '.', '1', '6'] &&
      (ipAddress.substring 6).compareTo ['1', '7', '2', '.', '3', '1'] ≤ 0)

/-- The body of the inner loop for an address that is looked at. -/
def dropInUse (candidates : Candidates) (ipAddress : JString) : Candidates :=
  if ipAddress.startsWith ['1', '0', '.'] then candidates.remove key10
  else if between ipAddress then candidates.remove key172
  else if ipAddress.startsWith ['1', '9', '2', '.', '1', '6', '8'] then candidates.remove key192
  else candidates

/-- The body of the inner loop. -/
def checkAddress (candidates : Candidates) (inetAddress : InetAddress) : Candidates :=
  match inetAddress with
  | .inet4 address =>
    if ¬ inetAddress.isLoopbackAddress then dropInUse candidates address.getHostAddress
    else candidates
  | .inet6 _ => candidates

/-- The two loops. -/
def remaining (netInterfaces : List NetworkInterface) : Candidates :=
  netInterfaces.foldl (fun candidates netInterface => netInterface.foldl checkAddress candidates)
    allCandidates

/-- The two reasons for an exception. -/
inductive SelectException
  | selectPrivateAddressFailed
  | noPrivateAddressAvailable
  deriving DecidableEq, Repr

/-- `selectPrivateAddress`, where `iterate` is the order in which the map is iterated and
`netInterfaces` what `getNetworkInterfaces` returns, if it does. -/
def selectPrivateAddress (iterate : Candidates → Candidates)
    (netInterfaces : Option (List NetworkInterface)) : Except SelectException PrivateAddress :=
  match netInterfaces with
  | none => .error .selectPrivateAddressFailed
  | some netInterfaces =>
    match (iterate (remaining netInterfaces)).head? with
    | some candidate => .ok candidate.2
    | none => .error .noPrivateAddressAvailable

/-! ### What the choice should be -/

/-- The address as a number. -/
def Inet4Address.toNat (address : Inet4Address) : ℕ :=
  ((address.b0 * 256 + address.b1) * 256 + address.b2) * 256 + address.b3

/-- The first `mPrefixLength` bits of the address are those of `mSubnet`. -/
def InSubnet (address : Inet4Address) (p : PrivateAddress) : Prop :=
  ∃ subnet : Inet4Address, subnet.getHostAddress = p.mSubnet ∧
    address.toNat / 2 ^ (32 - p.mPrefixLength) = subnet.toNat / 2 ^ (32 - p.mPrefixLength)

/-- The address, if it is one that counts: of IPv4, and not a loopback address. -/
def InetAddress.counted : InetAddress → Option Inet4Address
  | .inet4 address => if address.b0 = 127 then none else some address
  | .inet6 _ => none

/-- The IPv4 addresses of the interfaces that are not loopback addresses. -/
def inUse (netInterfaces : List NetworkInterface) : List Inet4Address :=
  netInterfaces.flatten.filterMap InetAddress.counted

/-- Whatever the order of iteration: no address in use is in the subnet of the address that is
returned, a candidate is dropped only if an address in use is in its subnet, and an exception is
thrown only if there is one in each. -/
def Sound (netInterfaces : List NetworkInterface) : Prop :=
  ∀ iterate : Candidates → Candidates, (∀ candidates, (iterate candidates).Perm candidates) →
    (∀ p, selectPrivateAddress iterate (some netInterfaces) = .ok p →
      ∀ address ∈ inUse netInterfaces, ¬ InSubnet address p) ∧
    (∀ candidate ∈ allCandidates, candidate ∉ remaining netInterfaces →
      ∃ address ∈ inUse netInterfaces, InSubnet address candidate.2) ∧
    (∀ e, selectPrivateAddress iterate (some netInterfaces) = .error e →
      ∀ candidate ∈ allCandidates, ∃ address ∈ inUse netInterfaces, InSubnet address candidate.2)

/-! ### Addresses as text -/

section Text

theorem dot_notMem_octet (b : Fin 256) : '.' ∉ octet b := by
  intro h
  have hdigit : Char.isDigit '.' = true :=
    Nat.isDigit_of_mem_toDigits (by decide) (by decide) h
  cases hdigit

theorem octet_injective : Function.Injective octet := by
  intro b b' h
  have hvalue := congrArg (Nat.ofDigitChars 10 · 0) h
  simp only [octet, Nat.ofDigitChars_toDigits (by decide : 1 < 10) (by decide : 10 ≤ 10)] at hvalue
  exact Fin.ext hvalue

theorem length_octet_le (b : Fin 256) : (octet b).length ≤ 3 :=
  (Nat.length_toDigits_le_iff (by decide) (by decide)).mpr (by omega)

theorem octet_ne_nil (b : Fin 256) : octet b ≠ [] := Nat.toDigits_ne_nil

variable {p s t r : JString} {c : Char}

/-- What stands before the first dot and what stands behind it. -/
theorem append_dot_inj (hs : c ∉ s) (hp : c ∉ p) (h : s ++ c :: t = p ++ c :: r) :
    s = p ∧ t = r := by
  induction s generalizing p with
  | nil =>
    cases p with
    | nil => exact ⟨rfl, (List.cons.inj h).2⟩
    | cons => exact absurd (List.cons.inj h).1 fun heq => hp (heq ▸ List.mem_cons_self)
  | cons _ _ ih =>
    cases p with
    | nil => exact absurd (List.cons.inj h).1.symm fun heq => hs (heq ▸ List.mem_cons_self)
    | cons =>
      obtain ⟨rfl, hrest⟩ := List.cons.inj h
      obtain ⟨rfl, htail⟩ :=
        ih (List.not_mem_of_not_mem_cons hs) (List.not_mem_of_not_mem_cons hp) hrest
      exact ⟨rfl, htail⟩

/-- Texts that differ before the first dot compare alike, whatever follows. -/
theorem exists_compareTo_of_ne (hs : c ∉ s) (hp : c ∉ p) (hne : s ≠ p) :
    ∃ d : ℤ, d ≠ 0 ∧ ∀ t r, JString.compareTo (s ++ c :: t) (p ++ c :: r) = d := by
  have hdiff : ∀ a b : Char, a ≠ b → (a.toNat : ℤ) - b.toNat ≠ 0 := by
    intro a b hab hzero
    refine hab (Char.ext (UInt32.toNat_inj.mp ?_))
    have hval : a.toNat = b.toNat := by omega
    exact hval
  induction s generalizing p with
  | nil =>
    cases p with
    | nil => exact absurd rfl hne
    | cons d =>
      have hcd : c ≠ d := fun heq => hp (heq ▸ List.mem_cons_self)
      exact ⟨_, hdiff c d hcd, fun t r => if_neg hcd⟩
  | cons d _ ih =>
    cases p with
    | nil =>
      have hdc : d ≠ c := fun heq => hs (heq ▸ List.mem_cons_self)
      exact ⟨_, hdiff d c hdc, fun t r => if_neg hdc⟩
    | cons e =>
      by_cases hde : d = e
      · obtain ⟨z, hz, hall⟩ := ih (List.not_mem_of_not_mem_cons hs)
          (List.not_mem_of_not_mem_cons hp) fun heq => hne (by rw [hde, heq])
        exact ⟨z, hz, fun t r => (if_pos hde).trans (hall t r)⟩
      · exact ⟨_, hdiff d e hde, fun t r => if_neg hde⟩

theorem getHostAddress_injective : Function.Injective Inet4Address.getHostAddress := by
  rintro ⟨a0, a1, a2, a3⟩ ⟨b0, b1, b2, b3⟩ h
  obtain ⟨h0, h⟩ := append_dot_inj (dot_notMem_octet _) (dot_notMem_octet _) h
  obtain ⟨h1, h⟩ := append_dot_inj (dot_notMem_octet _) (dot_notMem_octet _) h
  obtain ⟨h2, h3⟩ := append_dot_inj (dot_notMem_octet _) (dot_notMem_octet _) h
  rw [Inet4Address.mk.injEq]
  exact ⟨octet_injective h0, octet_injective h1, octet_injective h2, octet_injective h3⟩

variable (address : Inet4Address)

theorem startsWith_ten_iff :
    address.getHostAddress.startsWith ['1', '0', '.'] = true ↔ address.b0 = 10 := by
  rw [JString.startsWith, List.isPrefixOf_iff_prefix]
  constructor
  · rintro ⟨rest, hrest⟩
    have htext : octet 10 ++ '.' :: rest = address.getHostAddress := hrest
    exact octet_injective (append_dot_inj (dot_notMem_octet _) (dot_notMem_octet _) htext).1.symm
  · intro h
    rw [Inet4Address.getHostAddress, h]
    exact ⟨_, rfl⟩

theorem startsWith_192_168_iff :
    address.getHostAddress.startsWith ['1', '9', '2', '.', '1', '6', '8'] = true ↔
      address.b0 = 192 ∧ address.b1 = 168 := by
  rw [JString.startsWith, List.isPrefixOf_iff_prefix]
  constructor
  · rintro ⟨rest, hrest⟩
    have htext : octet 192 ++ '.' :: (octet 168 ++ rest) = address.getHostAddress := hrest
    obtain ⟨h0, htext⟩ := append_dot_inj (dot_notMem_octet _) (dot_notMem_octet _) htext
    refine ⟨octet_injective h0.symm, octet_injective ?_⟩
    -- a shorter octet would have its dot among the three digits
    have hprefix : octet address.b1 <+: octet 168 :=
      List.prefix_of_prefix_length_le ⟨_, htext.symm⟩ (List.prefix_append _ _)
        (length_octet_le _)
    obtain ⟨tail, htail⟩ := hprefix
    rw [← htail, List.append_assoc, List.append_cancel_left_eq] at htext
    cases tail with
    | nil => rw [← htail, List.append_nil]
    | cons =>
      obtain ⟨rfl, -⟩ := List.cons.inj htext
      refine absurd ?_ (dot_notMem_octet 168)
      rw [← htail]
      exact List.mem_append_right _ List.mem_cons_self
  · rintro ⟨h0, h1⟩
    rw [Inet4Address.getHostAddress, h0, h1]
    exact ⟨_, rfl⟩

/-- The second octets whose text comes between. -/
def Between (b : Fin 256) : Prop := b = 2 ∨ b = 3 ∨ (16 ≤ b ∧ b ≤ 31) ∨ 160 ≤ b

instance (b : Fin 256) : Decidable (Between b) := inferInstanceAs (Decidable (_ ∨ _ ∨ _ ∨ _))

theorem compareTo_octet (b : Fin 256) :
    (0 ≤ JString.compareTo ((octet b ++ ['.']).take 2) ['1', '6'] ∧
      JString.compareTo ((octet b ++ ['.']).take 2) ['3', '1'] ≤ 0) ↔ Between b := by
  revert b
  decide +kernel

theorem between_iff :
    between address.getHostAddress = true ↔ address.b0 = 172 ∧ Between address.b1 := by
  set rest := octet address.b2 ++ '.' :: octet address.b3 with hrest
  have htext : address.getHostAddress =
      octet address.b0 ++ '.' :: (octet address.b1 ++ '.' :: rest) := rfl
  have hlen : 6 ≤ address.getHostAddress.length := by
    have hpos := fun b => List.length_pos_of_ne_nil (octet_ne_nil b)
    have := hpos address.b0
    have := hpos address.b1
    have := hpos address.b2
    have := hpos address.b3
    simp only [htext, hrest, List.length_append, List.length_cons]
    omega
  rw [between, decide_eq_true hlen, Bool.true_and, Bool.and_eq_true, decide_eq_true_eq,
    decide_eq_true_eq]
  by_cases h0 : address.b0 = 172
  · have htwo : (octet address.b1 ++ '.' :: rest).take 2 = (octet address.b1 ++ ['.']).take 2 := by
      have := List.length_pos_of_ne_nil (octet_ne_nil address.b1)
      have hsplit : octet address.b1 ++ '.' :: rest = (octet address.b1 ++ ['.']) ++ rest := by
        rw [List.append_assoc, List.singleton_append]
      rw [hsplit, List.take_append_of_le_length]
      rw [List.length_append, List.length_singleton]
      omega
    have hsix : address.getHostAddress.substring 6 =
        '1' :: '7' :: '2' :: '.' :: (octet address.b1 ++ ['.']).take 2 := by
      rw [htext, h0, ← htwo]
      rfl
    rw [hsix, and_iff_right h0]
    exact compareTo_octet address.b1
  · -- both comparisons are decided before the first dot
    obtain ⟨d, hd, hall⟩ := exists_compareTo_of_ne (dot_notMem_octet address.b0)
      (dot_notMem_octet 172) (octet_injective.ne h0)
    have hsix : ∃ t, address.getHostAddress.substring 6 = octet address.b0 ++ '.' :: t := by
      have := length_octet_le address.b0
      refine ⟨(octet address.b1 ++ '.' :: rest).take (5 - (octet address.b0).length), ?_⟩
      rw [htext, JString.substring, List.take_append, List.take_of_length_le (by omega)]
      have hmore : 6 - (octet address.b0).length = 5 - (octet address.b0).length + 1 := by omega
      rw [hmore, List.take_succ_cons]
    obtain ⟨t, hsix⟩ := hsix
    have hlow : (address.getHostAddress.substring 6).compareTo ['1', '7', '2', '.', '1', '6'] = d :=
      hsix ▸ hall t ['1', '6']
    have hhigh :
        (address.getHostAddress.substring 6).compareTo ['1', '7', '2', '.', '3', '1'] = d :=
      hsix ▸ hall t ['3', '1']
    rw [hlow, hhigh]
    exact iff_of_false (fun h => hd (le_antisymm h.2 h.1)) fun h => h0 h.1

end Text

/-! ### Subnets -/

section Subnets

variable (address : Inet4Address)

/-- The subnet of a candidate is known. -/
theorem inSubnet_iff (subnet : Inet4Address) {p : PrivateAddress}
    (h : subnet.getHostAddress = p.mSubnet) :
    InSubnet address p ↔ address.toNat / 2 ^ (32 - p.mPrefixLength) =
      subnet.toNat / 2 ^ (32 - p.mPrefixLength) := by
  constructor
  · rintro ⟨subnet', hsubnet, heq⟩
    obtain rfl := getHostAddress_injective (hsubnet.trans h.symm)
    exact heq
  · exact fun heq => ⟨subnet, h, heq⟩

theorem inSubnet_address10_iff : InSubnet address address10 ↔ address.b0 = 10 := by
  rw [inSubnet_iff address ⟨10, 0, 0, 0⟩ rfl, Fin.ext_iff]
  change address.toNat / 16777216 = 10 ↔ (address.b0 : ℕ) = 10
  rw [Inet4Address.toNat]
  omega

theorem inSubnet_address172_iff :
    InSubnet address address172 ↔ address.b0 = 172 ∧ 16 ≤ address.b1 ∧ address.b1 ≤ 31 := by
  rw [inSubnet_iff address ⟨172, 16, 0, 0⟩ rfl, Fin.ext_iff]
  change address.toNat / 1048576 = 2753 ↔
    (address.b0 : ℕ) = 172 ∧ 16 ≤ (address.b1 : ℕ) ∧ (address.b1 : ℕ) ≤ 31
  rw [Inet4Address.toNat]
  omega

theorem inSubnet_address192_iff :
    InSubnet address address192 ↔ address.b0 = 192 ∧ address.b1 = 168 := by
  rw [inSubnet_iff address ⟨192, 168, 0, 0⟩ rfl, Fin.ext_iff, Fin.ext_iff]
  change address.toNat / 65536 = 49320 ↔ (address.b0 : ℕ) = 192 ∧ (address.b1 : ℕ) = 168
  rw [Inet4Address.toNat]
  omega

theorem inSubnet_address169_iff :
    InSubnet address address169 ↔ address.b0 = 169 ∧ address.b1 = 254 ∧ address.b2 = 1 := by
  rw [inSubnet_iff address ⟨169, 254, 1, 0⟩ rfl, Fin.ext_iff, Fin.ext_iff, Fin.ext_iff]
  change address.toNat / 256 = 11140609 ↔
    (address.b0 : ℕ) = 169 ∧ (address.b1 : ℕ) = 254 ∧ (address.b2 : ℕ) = 1
  rw [Inet4Address.toNat]
  omega

end Subnets

/-! ### The candidates that are left -/

section Remaining

/-- The key of the candidate that an address drops. -/
def dropKey (address : Inet4Address) : Option JString :=
  if address.b0 = 10 then some key10
  else if address.b0 = 172 ∧ Between address.b1 then some key172
  else if address.b0 = 192 ∧ address.b1 = 168 then some key192
  else none

theorem dropInUse_eq (candidates : Candidates) (address : Inet4Address) :
    dropInUse candidates address.getHostAddress =
      candidates.filter fun candidate => dropKey address ≠ some candidate.1 := by
  have hremove : ∀ key : JString, candidates.remove key =
      candidates.filter fun candidate => some key ≠ some candidate.1 := by
    intro key
    refine List.filter_congr fun candidate _ => decide_eq_decide.mpr ?_
    rw [ne_comm, ne_eq, ne_eq, Option.some_inj]
  simp only [dropInUse, startsWith_ten_iff, between_iff, startsWith_192_168_iff, dropKey]
  split_ifs
  · exact hremove key10
  · exact hremove key172
  · exact hremove key192
  · exact (List.filter_true candidates).symm

/-- One iteration of the inner loop. -/
theorem checkAddress_eq (candidates : Candidates) (inetAddress : InetAddress) :
    checkAddress candidates inetAddress = candidates.filter fun candidate =>
      ∀ address ∈ inetAddress.counted, dropKey address ≠ some candidate.1 := by
  have hkeep : ∀ p : JString × PrivateAddress → Bool, (∀ candidate, p candidate = true) →
      candidates = candidates.filter p := fun p h =>
    (List.filter_eq_self.mpr fun candidate _ => h candidate).symm
  cases inetAddress with
  | inet6 loopback => exact hkeep _ fun candidate => decide_eq_true nofun
  | inet4 address =>
    by_cases hloopback : address.b0 = 127
    · have hcounted : (InetAddress.inet4 address).counted = none := if_pos hloopback
      rw [checkAddress, InetAddress.isLoopbackAddress, decide_eq_true hloopback,
        if_neg (not_not_intro rfl), hcounted]
      exact hkeep _ fun candidate => decide_eq_true nofun
    · have hcounted : (InetAddress.inet4 address).counted = some address := if_neg hloopback
      rw [checkAddress, InetAddress.isLoopbackAddress, decide_eq_false hloopback,
        if_pos Bool.false_ne_true, dropInUse_eq, hcounted]
      refine List.filter_congr fun candidate _ => decide_eq_decide.mpr ?_
      simp only [Option.mem_def, Option.some.injEq, forall_eq']

/-- One address after the other. -/
theorem foldl_checkAddress (candidates : Candidates) (addresses : List InetAddress) :
    addresses.foldl checkAddress candidates = candidates.filter fun candidate =>
      ∀ address ∈ addresses.filterMap InetAddress.counted, dropKey address ≠ some candidate.1 := by
  induction addresses generalizing candidates with
  | nil => exact (List.filter_eq_self.mpr fun candidate _ => decide_eq_true nofun).symm
  | cons inetAddress _ ih =>
    rw [List.foldl_cons, ih, checkAddress_eq, List.filter_filter]
    refine List.filter_congr fun candidate _ => ?_
    rw [← Bool.decide_and, decide_eq_decide]
    cases hcounted : inetAddress.counted with
    | none =>
      rw [List.filterMap_cons_none hcounted]
      exact and_iff_left nofun
    | some =>
      rw [List.filterMap_cons_some hcounted, List.forall_mem_cons, and_comm]
      simp only [Option.mem_def, Option.some.injEq, forall_eq']

variable (netInterfaces : List NetworkInterface)

/-- A candidate is left if and only if no address drops it. -/
theorem mem_remaining_iff (candidate : JString × PrivateAddress) :
    candidate ∈ remaining netInterfaces ↔ candidate ∈ allCandidates ∧
      ∀ address ∈ inUse netInterfaces, dropKey address ≠ some candidate.1 := by
  rw [remaining, ← List.foldl_flatten, foldl_checkAddress, List.mem_filter, decide_eq_true_eq]
  rfl

/-- Nothing drops the last candidate. -/
theorem remaining_eq_concat : ∃ others, remaining netInterfaces = others ++ [(key169, address169)] := by
  have hall : allCandidates = [(key10, address10), (key172, address172), (key192, address192)] ++
      [(key169, address169)] := rfl
  have hnever : ∀ address : Inet4Address, dropKey address ≠ some key169 := by
    intro address
    unfold dropKey
    split_ifs <;> decide
  rw [remaining, ← List.foldl_flatten, foldl_checkAddress, hall, List.filter_append]
  refine ⟨_, congrArg _ (List.filter_eq_self.mpr ?_)⟩
  intro candidate hcandidate
  rw [List.mem_singleton] at hcandidate
  exact decide_eq_true fun address _ => hcandidate ▸ hnever address

/-- The second octets that come between and are not in the range. -/
def Stray (b : Fin 256) : Prop := b = 2 ∨ b = 3 ∨ 160 ≤ b

theorem between_iff_stray (b : Fin 256) : Between b ↔ Stray b ∨ (16 ≤ b ∧ b ≤ 31) := by
  unfold Between Stray
  tauto

variable {candidate : JString × PrivateAddress} {address : Inet4Address}

/-- An address in the subnet of a candidate drops it, unless it is the last one. -/
theorem dropKey_of_inSubnet (hall : candidate ∈ allCandidates) (h : InSubnet address candidate.2) :
    dropKey address = some candidate.1 ∨
      (address.b0 = 169 ∧ address.b1 = 254 ∧ address.b2 = 1) := by
  simp only [allCandidates, List.mem_cons, List.not_mem_nil, or_false] at hall
  unfold dropKey
  obtain rfl | rfl | rfl | rfl := hall
  · rw [if_pos ((inSubnet_address10_iff address).mp h)]
    exact .inl rfl
  · obtain ⟨h0, h1⟩ := (inSubnet_address172_iff address).mp h
    rw [if_neg (by rw [h0]; decide), if_pos ⟨h0, (between_iff_stray _).mpr (.inr h1)⟩]
    exact .inl rfl
  · have h192 := (inSubnet_address192_iff address).mp h
    rw [if_neg (by rw [h192.1]; decide), if_neg (by rw [h192.1]; exact fun h => nomatch h.1),
      if_pos h192]
    exact .inl rfl
  · exact .inr ((inSubnet_address169_iff address).mp h)

/-- An address that drops a candidate is in its subnet, or its second octet is a stray one. -/
theorem inSubnet_of_dropKey (hall : candidate ∈ allCandidates)
    (h : dropKey address = some candidate.1) :
    InSubnet address candidate.2 ∨
      (candidate.2 = address172 ∧ address.b0 = 172 ∧ Stray address.b1) := by
  simp only [allCandidates, List.mem_cons, List.not_mem_nil, or_false] at hall
  unfold dropKey at h
  obtain rfl | rfl | rfl | rfl := hall <;> split_ifs at h with h10 h172 h192 <;>
    first
      | exact absurd (Option.some.inj h) (by decide)
      | skip
  · exact .inl ((inSubnet_address10_iff address).mpr h10)
  · obtain hstray | hrange := (between_iff_stray _).mp h172.2
    · exact .inr ⟨rfl, h172.1, hstray⟩
    · exact .inl ((inSubnet_address172_iff address).mpr ⟨h172.1, hrange⟩)
  · exact .inl ((inSubnet_address192_iff address).mpr h192)

end Remaining

/-! ### When the choice is right -/

/-- **When the choice is right.** Whatever the order of iteration, the choice is right if and only
if no address in use is in `169.254.1.0/24`, and there is one in `172.16.0.0/12` if there is one
whose second octet is 2, 3 or at least 160. -/
theorem select_sound_iff (netInterfaces : List NetworkInterface) :
    Sound netInterfaces ↔
      (∀ address ∈ inUse netInterfaces,
        ¬ (address.b0 = 169 ∧ address.b1 = 254 ∧ address.b2 = 1)) ∧
      ((∃ address ∈ inUse netInterfaces,
          address.b0 = 172 ∧ (address.b1 = 2 ∨ address.b1 = 3 ∨ 160 ≤ address.b1)) →
        ∃ address ∈ inUse netInterfaces,
          address.b0 = 172 ∧ 16 ≤ address.b1 ∧ address.b1 ≤ 31) := by
  obtain ⟨others, hothers⟩ := remaining_eq_concat netInterfaces
  constructor
  · intro hsound
    obtain ⟨hfree, hdropped, -⟩ := hsound List.reverse fun _ => List.reverse_perm _
    constructor
    · -- iterated backwards, the map gives the candidate that nothing drops
      intro address haddress h169
      have hselect : selectPrivateAddress List.reverse (some netInterfaces) = .ok address169 := by
        rw [selectPrivateAddress, hothers, List.reverse_append]
        rfl
      exact hfree address169 hselect address haddress
        ((inSubnet_address169_iff address).mpr h169)
    · rintro ⟨address, haddress, h172, hb1⟩
      have hdrop : dropKey address = some key172 := by
        rw [dropKey, if_neg (by rw [h172]; decide),
          if_pos ⟨h172, (between_iff_stray _).mpr (.inl hb1)⟩]
      obtain ⟨address', haddress', hsubnet⟩ := hdropped (key172, address172)
        (by simp [allCandidates]) fun hmem =>
          ((mem_remaining_iff netInterfaces _).mp hmem).2 address haddress hdrop
      exact ⟨address', haddress', (inSubnet_address172_iff address').mp hsubnet⟩
  · rintro ⟨h169, h172⟩ iterate hiterate
    refine ⟨?_, ?_, ?_⟩
    · intro p hselect address haddress hsubnet
      rw [selectPrivateAddress] at hselect
      split at hselect
      · rename_i candidate hhead
        obtain rfl := Except.ok.inj hselect
        have hmem := (hiterate _).mem_iff.mp (List.mem_of_mem_head? hhead)
        obtain ⟨hall, hleft⟩ := (mem_remaining_iff netInterfaces candidate).mp hmem
        obtain hdrop | hlast := dropKey_of_inSubnet hall hsubnet
        · exact hleft address haddress hdrop
        · exact h169 address haddress hlast
      · exact nomatch hselect
    · intro candidate hall hnot
      rw [mem_remaining_iff, and_iff_right hall] at hnot
      push Not at hnot
      obtain ⟨address, haddress, hdrop⟩ := hnot
      obtain hsubnet | ⟨hcandidate, hstray⟩ := inSubnet_of_dropKey hall hdrop
      · exact ⟨address, haddress, hsubnet⟩
      · obtain ⟨address', haddress', hrange⟩ := h172 ⟨address, haddress, hstray⟩
        exact ⟨address', haddress', hcandidate ▸ (inSubnet_address172_iff address').mpr hrange⟩
    · -- the last candidate is left, so no exception is thrown
      intro e hselect
      rw [selectPrivateAddress] at hselect
      split at hselect
      · exact nomatch hselect
      · rename_i hhead
        have hnil : remaining netInterfaces = [] :=
          List.perm_nil.mp (List.head?_eq_none_iff.mp hhead ▸ (hiterate _).symm)
        rw [hothers] at hnil
        exact absurd hnil (List.append_ne_nil_of_right_ne_nil _ (List.cons_ne_nil _ _))

/-- With `169.254.1.7` in use, `169.254.1.1` may be chosen; and `172.200.0.1` in use drops the
candidate `172.16.0.0/12`, in which there is no address in use. -/
theorem select_unsound :
    ¬ Sound [[.inet4 ⟨169, 254, 1, 7⟩]] ∧ ¬ Sound [[.inet4 ⟨172, 200, 0, 1⟩]] := by
  constructor
  · intro hsound
    obtain ⟨hfree, -, -⟩ := hsound List.reverse fun _ => List.reverse_perm _
    refine hfree address169 (by decide +kernel) ⟨169, 254, 1, 7⟩ (by decide) ?_
    exact ⟨⟨169, 254, 1, 0⟩, rfl, by decide⟩
  · intro hsound
    obtain ⟨-, hdropped, -⟩ := hsound id fun _ => List.Perm.refl _
    obtain ⟨address, haddress, hsubnet⟩ :=
      hdropped (key172, address172) (by decide) (by decide +kernel)
    obtain rfl : address = ⟨172, 200, 0, 1⟩ := by simpa [inUse, InetAddress.counted] using haddress
    exact absurd ((inSubnet_address172_iff _).mp hsubnet).2.2 (by decide)

end Tun2Socks.Tunnel
