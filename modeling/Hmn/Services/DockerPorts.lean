/-
  Hmn.Services.DockerPorts — what two extractors read off the ports of a
  container, against what Docker means by them.

  A list of ports is a list of items of three forms.  Both patterns only
  match around the arrow of an item (`Hit`), so a text is read item by item
  (`groupsFrom_items`): a range gives nothing, and the one that reads the
  whole text needs an address.

  Main result: `ports_extracted_iff`.
-/
import Hmn.Framework.Decimal
import Hmn.Framework.Matching
import Hmn.Services.Curated
import Hmn.Services.Inventory

namespace Hmn

open Framework Framework.Regex Framework.Fallible Framework.Text

/-! ## §1. Docker's format. -/

def isAddressChar (c : Char) : Bool := isAlnum c || c ∈ ['.', ':', '[', ']', '%', '_', '-']

/-- An address of a host: IPv4, IPv6 with or without brackets, or a name. -/
structure HostAddress where
  text : String
  nonempty : text ≠ ""
  chars : ∀ c ∈ text.toList, isAddressChar c = true

structure PortProtocol where
  text : String
  nonempty : text ≠ ""
  chars : ∀ c ∈ text.toList, isAlnum c = true

inductive PortItem where
  /-- `[address:]host->container/proto`. -/
  | published (address : Option HostAddress) (host container : Nat) (proto : PortProtocol)
  /-- `[address:]lo-hi->lo-hi/proto`. -/
  | range (address : Option HostAddress) (lo hi containerLo containerHi : Nat) (proto : PortProtocol)
  /-- `container/proto`. -/
  | unpublished (container : Nat) (proto : PortProtocol)

/-- `address:`, where there is one. -/
def addressChars : Option HostAddress → List Char
  | none => []
  | some address => address.text.toList ++ [':']

/-- The decimal digits of a port. -/
def portChars (port : Nat) : List Char := (toString port).toList

namespace PortItem

def chars : PortItem → List Char
  | published address host container proto =>
    addressChars address ++ portChars host ++ '-' :: '>' :: (portChars container
      ++ '/' :: proto.text.toList)
  | range address lo hi containerLo containerHi proto =>
    addressChars address ++ portChars lo ++ '-' :: portChars hi ++ '-' :: '>' ::
      (portChars containerLo ++ '-' :: (portChars containerHi ++ '/' :: proto.text.toList))
  | unpublished container proto => portChars container ++ '/' :: proto.text.toList

def text (item : PortItem) : String := String.ofList item.chars

/-- The ports of the host that lead to the container. -/
def hostPorts : PortItem → List Nat
  | published _ host _ _ => [host]
  | range _ lo hi _ _ _ => List.range' lo (hi + 1 - lo)
  | unpublished _ _ => []

end PortItem

/-- The ports of a container, as Docker writes them. -/
def portsText (items : List PortItem) : String := Text.join ", " (items.map PortItem.text)

/-- The result is the sorted list of all published ports, each of them once. -/
def IsPublished (result : Except PyError (List Int)) (items : List PortItem) : Prop :=
  ∃ ports, result = .ok ports ∧ ports.Pairwise (· < ·)
    ∧ ∀ port, port ∈ ports ↔ ∃ item ∈ items, ∃ n ∈ item.hostPorts, port = n

/-! ## §2. Digits. -/

def Digits (cs : List Char) : Prop := cs ≠ [] ∧ ∀ c ∈ cs, isDigit c = true

theorem portChars_eq (port : Nat) : portChars port = Nat.toDigits 10 port := by
  rw [portChars, Nat.toString_eq_repr, Nat.toList_repr]

theorem isDigit_of_mem_portChars {port : Nat} {c : Char} (h : c ∈ portChars port) :
    c.isDigit = true :=
  Nat.isDigit_of_mem_toDigits (by decide) (by decide) (portChars_eq port ▸ h)

theorem digits_portChars (port : Nat) : Digits (portChars port) := by
  refine ⟨by rw [portChars_eq]; exact Nat.toDigits_ne_nil, fun c hc => ?_⟩
  rw [isDigit, isDigit_ascii (isDigit_of_mem_portChars hc)]
  rfl

theorem intOfDigits_portChars {port : Nat} {m : Int} :
    intOfDigits (portChars port) = .ok m ↔ m = port ∧ (portChars port).length ≤ Text.maxDigits := by
  rw [intOfDigits, parseInt_digits (digits_portChars port).1 fun c => isDigit_of_mem_portChars,
    portChars_eq, Nat.ofDigitChars_ten_toDigits]
  by_cases hlen : Text.maxDigits < (Nat.toDigits 10 port).length
  · rw [if_pos hlen]
    exact ⟨nofun, fun h => absurd h.2 (Nat.not_le.mpr hlen)⟩
  · rw [if_neg hlen]
    exact ⟨fun h => ⟨(Except.ok.inj h).symm, Nat.not_lt.mp hlen⟩, fun h => by rw [h.1]⟩

/-- Two numbers followed by something else. -/
theorem Digits.append_cons_inj {d d' u u' : List Char} {x y : Char} (hd : Digits d)
    (hd' : Digits d') (hx : isDigit x = false) (hy : isDigit y = false)
    (h : d ++ x :: u = d' ++ y :: u') : d = d' ∧ x = y ∧ u = u' := by
  have htake : ∀ {d u : List Char} {x : Char}, Digits d → isDigit x = false →
      (d ++ x :: u).takeWhile isDigit = d := by
    intro d u x hd hx
    rw [List.takeWhile_append_of_pos hd.2, List.takeWhile_cons_of_neg (by simp [hx]),
      List.append_nil]
  have heq : d = d' := by rw [← htake hd hx (u := u), h, htake hd' hy]
  subst heq
  have hrest := List.append_cancel_left h
  exact ⟨rfl, List.cons.inj hrest⟩

/-- The number behind the last colon, or the whole text. -/
theorem Digits.eq_of_append_eq {a b w h : List Char} (ha : a = [] ∨ ∃ a', a = a' ++ [':'])
    (hb : b = [] ∨ ∃ b', b = b' ++ [':']) (hw : Digits w) (hh : Digits h) (heq : b ++ h = a ++ w) :
    w = h := by
  have hlast : ∀ {a w : List Char}, (a = [] ∨ ∃ a', a = a' ++ [':']) → Digits w →
      (a ++ w).reverse.takeWhile isDigit = w.reverse := by
    rintro a w ha hw
    rw [List.reverse_append, List.takeWhile_append_of_pos fun c hc => hw.2 c (List.mem_reverse.mp hc)]
    rcases ha with rfl | ⟨a', rfl⟩
    · simp
    · rw [List.reverse_append, List.reverse_singleton, List.singleton_append,
        List.takeWhile_cons_of_neg (by decide), List.append_nil]
  rw [← List.reverse_inj, ← hlast ha hw, ← heq, hlast hb hh]

/-! ## §3. Where the patterns match. -/

/-- The protocols the patterns know. -/
def knownProtocols : List (List Char) := ["tcp".toList, "udp".toList]

/-- What may stand before the port of the host: text with a colon at its end or,
where a port may be `bare`, nothing. -/
def PortPrefix (bare : Bool) (a : List Char) : Prop :=
  (bare = true ∧ a = []) ∨ ∃ a', a = a' ++ [':'] ∧ ∀ c ∈ a', c ≠ '>' ∧ c ≠ ' '

/-- A place with a port `w` of the host; `post` is what follows the protocol. -/
structure Hit (bare : Bool) (cs w post : List Char) : Prop where
  parts : ∃ a d p, PortPrefix bare a ∧ Digits d ∧ p ∈ knownProtocols
    ∧ cs = a ++ (w ++ '-' :: '>' :: (d ++ '/' :: (p ++ post)))
  digits : Digits w

/-- The port, the arrow, the port of the container and the protocol. -/
def hostPort : Regex :=
  all [group 1 (plus isDigit), lit "->", plus isDigit, lit "/", any (lit "tcp") [lit "udp"]]

theorem protocol_sound {mid out : Cursor} (h : (any (lit "tcp") [lit "udp"]).Matches mid out) :
    ∃ p ∈ knownProtocols, mid.rest = p ++ out.rest ∧ out.groups = mid.groups := by
  rcases h with htcp | hudp
  · obtain ⟨rest, hrest, rfl⟩ := matches_lit.mp htcp
    exact ⟨_, List.mem_cons_self, hrest, rfl⟩
  · obtain ⟨rest, hrest, rfl⟩ := matches_lit.mp hudp
    exact ⟨_, List.mem_cons_of_mem _ List.mem_cons_self, hrest, rfl⟩

theorem hostPort_sound {cur out : Cursor} (h : hostPort.Matches cur out) :
    ∃ w d p, Digits w ∧ Digits d ∧ p ∈ knownProtocols
      ∧ cur.rest = w ++ '-' :: '>' :: (d ++ '/' :: (p ++ out.rest))
      ∧ out.groups.lookup 1 = some w := by
  obtain ⟨m₁, hport, m₂, harrow, m₃, hcontainer, m₄, hslash, m₅, hproto, rfl⟩ := h
  obtain ⟨w, r₁, hne, h₁, hw, rfl⟩ := matches_group_plus.mp hport
  obtain ⟨r₂, h₂, rfl⟩ := matches_lit.mp harrow
  obtain ⟨d, r₃, hne', h₃, hd, rfl⟩ := matches_plus.mp hcontainer
  obtain ⟨r₄, h₄, rfl⟩ := matches_lit.mp hslash
  obtain ⟨p, hp, h₅, hgroup⟩ := protocol_sound hproto
  refine ⟨w, d, p, ⟨hne, hw⟩, ⟨hne', hd⟩, hp, ?_, by rw [hgroup]; rfl⟩
  change r₁ = "->".toList ++ r₂ at h₂
  change r₂ = d ++ r₃ at h₃
  change r₃ = "/".toList ++ r₄ at h₄
  change r₄ = p ++ out.rest at h₅
  rw [h₁, h₂, h₃, h₄, h₅]
  rfl

theorem hostPort_complete {w d p post : List Char} (hw : Digits w) (hd : Digits d)
    (hp : p ∈ knownProtocols) {cur : Cursor}
    (hrest : cur.rest = w ++ '-' :: '>' :: (d ++ '/' :: (p ++ post))) :
    ∃ out, hostPort.Matches cur out := by
  have hproto : ∀ {mid : Cursor}, mid.rest = p ++ post →
      ∃ out, (any (lit "tcp") [lit "udp"]).Matches mid out := by
    intro mid hmid
    rcases List.mem_cons.mp hp with rfl | hp
    · exact ⟨_, Or.inl (matches_lit.mpr ⟨post, hmid, rfl⟩)⟩
    · obtain rfl := List.mem_singleton.mp hp
      exact ⟨_, Or.inr (matches_lit.mpr ⟨post, hmid, rfl⟩)⟩
  have hport : (group 1 (plus isDigit)).Matches cur ⟨lastOf cur.prev w,
      '-' :: '>' :: (d ++ '/' :: (p ++ post)), (1, w) :: cur.groups⟩ :=
    matches_group_plus.mpr ⟨w, _, hw.1, hrest, hw.2, rfl⟩
  obtain ⟨out, hout⟩ := @hproto (Cursor.behind (Cursor.behind (Cursor.behind
    ⟨lastOf cur.prev w, '-' :: '>' :: (d ++ '/' :: (p ++ post)), (1, w) :: cur.groups⟩
    "->".toList (d ++ '/' :: (p ++ post))) d ('/' :: (p ++ post))) "/".toList (p ++ post)) rfl
  exact ⟨out, _, hport, _, matches_lit.mpr ⟨_, rfl, rfl⟩, _,
    matches_plus.mpr ⟨d, _, hd.1, rfl, hd.2, rfl⟩, _, matches_lit.mpr ⟨_, rfl, rfl⟩, _, hout, rfl⟩

/-- A pattern that reads ports off the places with a port, and finds the ports
of addresses and, where a port may be bare, bare ones. -/
structure ReadsPorts (bare : Bool) (r : Regex) : Prop where
  sound : ∀ {prev cs out}, r.Matches ⟨prev, cs, []⟩ out →
    ∃ w, Hit bare cs w out.rest ∧ out.groups.lookup 1 = some w
  complete : ∀ {prev w d p post}, Digits w → Digits d → p ∈ knownProtocols →
    r.Here prev ((if bare then [] else [':'])
      ++ (w ++ '-' :: '>' :: (d ++ '/' :: (p ++ post))))

/-- The characters that addresses of the patterns have. -/
theorem isDigit_address {c : Char} (h : isDigit c = true) : c ≠ '>' ∧ c ≠ ' ' := by
  constructor <;> (rintro rfl; revert h; decide)

/-- A port behind a colon. -/
theorem hit_of_colon {bare : Bool} {a' w d p post : List Char} (ha' : ∀ c ∈ a', c ≠ '>' ∧ c ≠ ' ')
    (hw : Digits w) (hd : Digits d) (hp : p ∈ knownProtocols) :
    Hit bare (a' ++ ':' :: (w ++ '-' :: '>' :: (d ++ '/' :: (p ++ post)))) w post :=
  ⟨⟨a' ++ [':'], d, p, Or.inr ⟨a', rfl, ha'⟩, hd, hp, by simp⟩, hw⟩

theorem readsPorts_docker : ReadsPorts false dockerPort := by
  constructor
  · rintro prev cs out ⟨m₁, haddress, m₂, hcolon, hport⟩
    obtain ⟨a', h₁, ha'⟩ := haddress.over (q := fun c => c ≠ '>' ∧ c ≠ ' ') (by
      simpa [opt, any, all, octet, upTo, Over] using fun c hc => isDigit_address hc)
    obtain ⟨rest, h₂, rfl⟩ := matches_lit.mp hcolon
    obtain ⟨w, d, p, hw, hd, hp, h₃, hgroup⟩ := hostPort_sound hport
    refine ⟨w, ?_, hgroup⟩
    change cs = a' ++ m₁.rest at h₁
    change rest = _ at h₃
    rw [h₁, h₂, h₃]
    exact hit_of_colon ha' hw hd hp
  · intro prev w d p post hw hd hp
    obtain ⟨out, hout⟩ := @hostPort_complete w d p post hw hd hp
      (Cursor.behind ⟨prev, ':' :: (w ++ '-' :: '>' :: (d ++ '/' :: (p ++ post))), []⟩
        ":".toList (w ++ '-' :: '>' :: (d ++ '/' :: (p ++ post)))) rfl
    exact ⟨out, _, Or.inr rfl, _, matches_lit.mpr ⟨_, rfl, rfl⟩, hout⟩

theorem readsPorts_container : ReadsPorts true containerPort := by
  constructor
  · rintro prev cs out ⟨m₁, hleads, hport⟩
    obtain ⟨w, d, p, hw, hd, hp, h₃, hgroup⟩ := hostPort_sound hport
    refine ⟨w, ?_, hgroup⟩
    rcases hleads with ⟨m₂, haddress, m₃, hcolon, rfl⟩ | rfl
    · obtain ⟨a', h₁, ha'⟩ := haddress.over (q := fun c => c ≠ '>' ∧ c ≠ ' ') (by
        simpa [any, all, Over] using fun c hc => isDigit_address hc)
      obtain ⟨rest, h₂, rfl⟩ := matches_lit.mp hcolon
      change cs = a' ++ m₂.rest at h₁
      change rest = _ at h₃
      rw [h₁, h₂, h₃]
      exact hit_of_colon ha' hw hd hp
    · exact ⟨⟨[], d, p, Or.inl ⟨rfl, rfl⟩, hd, hp, h₃⟩, hw⟩
  · intro prev w d p post hw hd hp
    obtain ⟨out, hout⟩ := @hostPort_complete w d p post hw hd hp
      ⟨prev, w ++ '-' :: '>' :: (d ++ '/' :: (p ++ post)), []⟩ rfl
    exact ⟨out, _, Or.inr rfl, hout⟩

/-! ## §4. Item by item. -/

section Items

variable {bare : Bool} {cs w post : List Char}

/-- The text before the arrow of a hit. -/
theorem Hit.split (h : Hit bare cs w post) : ∃ a d p, PortPrefix bare a ∧ Digits d
    ∧ p ∈ knownProtocols ∧ cs = (a ++ (w ++ ['-'])) ++ '>' :: (d ++ '/' :: (p ++ post))
    ∧ ∀ c ∈ a ++ (w ++ ['-']), c ≠ '>' ∧ c ≠ ' ' := by
  obtain ⟨⟨a, d, p, ha, hd, hp, heq⟩, hw⟩ := h
  refine ⟨a, d, p, ha, hd, hp, by simp [heq], fun c hc => ?_⟩
  simp only [List.mem_append, List.mem_singleton] at hc
  rcases hc with hc | hc | rfl
  · rcases ha with ⟨-, rfl⟩ | ⟨a', rfl, ha'⟩
    · cases hc
    · rcases List.mem_append.mp hc with hc | hc
      · exact ha' c hc
      · rw [List.mem_singleton.mp hc]
        decide
  · exact isDigit_address (hw.2 c hc)
  · decide

/-- Nothing is found from a place with a blank before the next arrow. -/
theorem not_hit_of_blank {y z : List Char} (harrow : '>' ∉ y) (hblank : ' ' ∈ y) :
    ¬ Hit bare (y ++ z) w post := by
  intro h
  obtain ⟨a, d, p, -, -, -, heq, hplain⟩ := h.split
  rcases List.append_eq_append_iff.mp heq with ⟨x, hx, -⟩ | ⟨x, hx, hrest⟩
  · exact (hplain ' ' (hx ▸ List.mem_append_left x hblank)).2 rfl
  · cases x with
    | nil =>
      rw [List.append_nil] at hx
      exact (hplain ' ' (hx ▸ hblank)).2 rfl
    | cons c x =>
      obtain ⟨rfl, -⟩ := List.cons.inj hrest
      exact harrow (hx ▸ List.mem_append_right _ List.mem_cons_self)

/-- Nothing is found where no arrow follows. -/
theorem not_hit_of_no_arrow (harrow : '>' ∉ cs) : ¬ Hit bare cs w post := by
  intro h
  obtain ⟨a, d, p, -, -, -, heq, -⟩ := h.split
  exact harrow (heq ▸ List.mem_append_right _ List.mem_cons_self)

/-- What follows an item: nothing, or the next items. -/
def ItemEnds (rest : List Char) : Prop := rest = [] ∨ ∃ rest', rest = ',' :: ' ' :: rest'

theorem not_hit_of_junk {y rest : List Char} (harrow : '>' ∉ y) (hends : ItemEnds rest) :
    ¬ Hit bare (y ++ rest) w post := by
  rcases hends with rfl | ⟨rest', rfl⟩
  · rw [List.append_nil]
    exact not_hit_of_no_arrow harrow
  · have happend : y ++ ',' :: ' ' :: rest' = (y ++ [',', ' ']) ++ rest' := by simp
    rw [happend]
    exact not_hit_of_blank (by simp [harrow]) (by simp)

/-- What a hit says about the text on both sides of its arrow. -/
theorem Hit.around {s t : List Char} (h : Hit bare (s ++ '>' :: t) w post) (hs : '>' ∉ s) :
    ∃ a d p, PortPrefix bare a ∧ Digits d ∧ p ∈ knownProtocols ∧ s = a ++ (w ++ ['-'])
      ∧ t = d ++ '/' :: (p ++ post) := by
  obtain ⟨a, d, p, ha, hd, hp, heq, hplain⟩ := h.split
  have hsplit : s = a ++ (w ++ ['-']) ∧ t = d ++ '/' :: (p ++ post) := by
    have hno : '>' ∉ a ++ (w ++ ['-']) := fun hmem => (hplain _ hmem).1 rfl
    rcases List.append_eq_append_iff.mp heq with ⟨x, hx, hrest⟩ | ⟨x, hx, hrest⟩
    · cases x with
      | nil =>
        rw [List.append_nil] at hx
        exact ⟨hx.symm, (List.cons.inj hrest).2⟩
      | cons c x =>
        obtain ⟨rfl, -⟩ := List.cons.inj hrest
        exact absurd (hx ▸ List.mem_append_right _ List.mem_cons_self) hno
    · cases x with
      | nil =>
        rw [List.append_nil] at hx
        exact ⟨hx, (List.cons.inj hrest).2.symm⟩
      | cons c x =>
        obtain ⟨rfl, -⟩ := List.cons.inj hrest
        exact absurd (hx ▸ List.mem_append_right _ List.mem_cons_self) hs
  exact ⟨a, d, p, ha, hd, hp, hsplit⟩

/-- A hit that starts in an item holds its arrow. -/
theorem Hit.arrow_in_item {s t u v rest : List Char} (h : Hit bare (v ++ rest) w post)
    (hs : '>' ∉ s) (ht : '>' ∉ t) (heq : s ++ '>' :: t = u ++ v) (hends : ItemEnds rest) :
    ∃ s' a d p, s = u ++ s' ∧ PortPrefix bare a ∧ Digits d ∧ p ∈ knownProtocols
      ∧ s' = a ++ (w ++ ['-']) ∧ t ++ rest = d ++ '/' :: (p ++ post) := by
  have hstart : ∃ s', s = u ++ s' ∧ v = s' ++ '>' :: t := by
    rcases List.append_eq_append_iff.mp heq with ⟨x, hx, hrest⟩ | ⟨x, hx, hrest⟩
    · cases x with
      | nil => exact ⟨[], by simpa using hx.symm, hrest.symm⟩
      | cons c x =>
        obtain ⟨-, rfl⟩ := List.cons.inj hrest
        exact absurd h (not_hit_of_junk (fun hmem => ht (List.mem_append_right x hmem)) hends)
    · exact ⟨x, hx, hrest⟩
  obtain ⟨s', rfl, rfl⟩ := hstart
  rw [List.append_assoc, List.cons_append] at h
  obtain ⟨a, d, p, ha, hd, hp, hbefore, hafter⟩ :=
    h.around fun hmem => hs (List.mem_append_right u hmem)
  exact ⟨s', a, d, p, rfl, ha, hd, hp, hbefore, hafter⟩

end Items

/-- A protocol that the patterns accept. -/
def PortProtocol.Known (proto : PortProtocol) : Prop :=
  ∃ p ∈ knownProtocols, p <+: proto.text.toList

instance (proto : PortProtocol) : Decidable proto.Known :=
  inferInstanceAs (Decidable (∃ p ∈ knownProtocols, p <+: proto.text.toList))

/-- The port of the host that a pattern reads off an item. -/
def PortItem.read (bare : Bool) : PortItem → Option Nat
  | .published address host _ proto =>
    if (bare = true ∨ address.isSome) ∧ proto.Known then some host else none
  | .range .. | .unpublished .. => none

theorem arrow_not_mem_portChars (port : Nat) : '>' ∉ portChars port :=
  fun h => (isDigit_address ((digits_portChars port).2 _ h)).1 rfl

theorem arrow_not_mem_addressChars (address : Option HostAddress) : '>' ∉ addressChars address := by
  cases address with
  | none => exact List.not_mem_nil
  | some address =>
    intro h
    rcases List.mem_append.mp h with h | h
    · exact absurd (address.chars _ h) (by decide)
    · exact absurd (List.mem_singleton.mp h) (by decide)

theorem PortProtocol.arrow_not_mem (proto : PortProtocol) : '>' ∉ proto.text.toList :=
  fun h => absurd (proto.chars _ h) (by decide)

theorem length_of_known {p : List Char} (h : p ∈ knownProtocols) : p.length = 3 := by
  simp only [knownProtocols, List.mem_cons, List.not_mem_nil, or_false] at h
  rcases h with rfl | rfl <;> rfl

/-- What a pattern takes for a protocol is one of the item. -/
theorem PortProtocol.known_of_append {proto : PortProtocol} {p post rest : List Char}
    (hp : p ∈ knownProtocols) (hends : ItemEnds rest)
    (h : proto.text.toList ++ rest = p ++ post) : proto.Known := by
  refine ⟨p, hp, ?_⟩
  rcases List.append_eq_append_iff.mp h with ⟨x, hx, hrest⟩ | ⟨x, hx, -⟩
  · cases x with
    | nil => exact ⟨[], by simpa using hx⟩
    | cons c x =>
      rcases hends with rfl | ⟨rest', rfl⟩
      · cases hrest
      · obtain ⟨rfl, -⟩ := List.cons.inj hrest
        have hcomma : ∀ p ∈ knownProtocols, ',' ∉ p := by decide
        exact absurd (hx ▸ List.mem_append_right _ List.mem_cons_self) (hcomma p hp)
  · exact ⟨x, hx.symm⟩

/-- Nothing is found in an item that nothing is read off. -/
theorem PortItem.not_hit {bare : Bool} {item : PortItem} {u v rest w post : List Char}
    (hread : item.read bare = none) (heq : item.chars = u ++ v) (hends : ItemEnds rest) :
    ¬ Hit bare (v ++ rest) w post := by
  intro h
  cases item with
  | published address host container proto =>
    have hsplit : (addressChars address ++ (portChars host ++ ['-'])) ++ '>' ::
        (portChars container ++ '/' :: proto.text.toList) = u ++ v := by
      rw [← heq]
      simp [PortItem.chars]
    obtain ⟨s', a, d, p, hs', ha, hd, hp, hbefore, hafter⟩ := h.arrow_in_item
      (by simp [arrow_not_mem_addressChars, arrow_not_mem_portChars])
      (by simp [arrow_not_mem_portChars, proto.arrow_not_mem]) hsplit hends
    rw [List.append_assoc, List.cons_append] at hafter
    obtain ⟨-, -, hproto⟩ := (digits_portChars container).append_cons_inj hd (by decide) (by decide)
      hafter
    have hknown := PortProtocol.known_of_append hp hends hproto
    rw [PortItem.read, ite_eq_right_iff] at hread
    rcases ha with ⟨hbare, -⟩ | ⟨a', rfl, -⟩
    · exact nomatch hread ⟨Or.inl hbare, hknown⟩
    · cases address with
      | some address => exact nomatch hread ⟨Or.inr rfl, hknown⟩
      | none =>
        have hcolon : ':' ∈ portChars host ++ ['-'] := by
          have hmem : ':' ∈ addressChars none ++ (portChars host ++ ['-']) := by
            rw [hs', hbefore]
            simp
          exact hmem
        rcases List.mem_append.mp hcolon with hmem | hmem
        · exact absurd ((digits_portChars host).2 _ hmem) (by decide)
        · exact absurd (List.mem_singleton.mp hmem) (by decide)
  | range address lo hi containerLo containerHi proto =>
    have hsplit : (addressChars address ++ (portChars lo ++ ('-' :: portChars hi ++ ['-']))) ++ '>' ::
        (portChars containerLo ++ '-' :: (portChars containerHi ++ '/' :: proto.text.toList))
          = u ++ v := by
      rw [← heq]
      simp [PortItem.chars]
    obtain ⟨s', a, d, p, -, -, hd, -, -, hafter⟩ := h.arrow_in_item
      (by simp [arrow_not_mem_addressChars, arrow_not_mem_portChars])
      (by simp [arrow_not_mem_portChars, proto.arrow_not_mem]) hsplit hends
    rw [List.append_assoc, List.cons_append] at hafter
    exact absurd ((digits_portChars containerLo).append_cons_inj hd (by decide) (by decide) hafter).2.1
      (by decide)
  | unpublished container proto =>
    refine not_hit_of_junk (fun hmem => ?_) hends h
    have hitem : '>' ∈ (PortItem.unpublished container proto).chars := by
      rw [heq]
      exact List.mem_append_right u hmem
    simp [PortItem.chars, arrow_not_mem_portChars, proto.arrow_not_mem] at hitem

/-- An address ends in a colon. -/
theorem addressChars_suffix {address : Option HostAddress} {x y : List Char}
    (h : addressChars address = x ++ y) : y = [] ∨ ∃ y', y = y' ++ [':'] := by
  rcases List.eq_nil_or_concat' y with rfl | ⟨y', c, rfl⟩
  · exact Or.inl rfl
  · refine Or.inr ⟨y', ?_⟩
    cases address with
    | none => simp [addressChars] at h
    | some address =>
      rw [← List.append_assoc] at h
      rw [(List.append_inj' h rfl).2]

/-- **An item with a port that a pattern reads**: the first match is around its
arrow and gives that port. -/
theorem PortItem.first_hit {bare : Bool} {r : Regex} (hr : ReadsPorts bare r) {item : PortItem}
    {host : Nat} (hread : item.read bare = some host) (rest : List Char) (prev : Option Char) :
    ∃ f post, r.find prev (item.chars ++ rest) = some f ∧ f.group 1 = portChars host
      ∧ f.stop.rest = post ++ rest ∧ '>' ∉ post ∧ post.length < item.chars.length := by
  cases item with
  | published address port container proto =>
    rw [PortItem.read, Option.ite_none_right_eq_some] at hread
    obtain ⟨⟨hform, p, hp, post, hproto⟩, hsome⟩ := hread
    obtain rfl := Option.some.inj hsome
    -- the place from which a match is known, and the address in front of it
    obtain ⟨front, hfront⟩ : ∃ front, addressChars address
        = front ++ (if bare then [] else [':']) := by
      cases bare with
      | true => exact ⟨addressChars address, by simp⟩
      | false =>
        obtain ⟨address, rfl⟩ := Option.isSome_iff_exists.mp (by simpa using hform)
        exact ⟨address.text.toList, rfl⟩
    have hchars : (PortItem.published address port container proto).chars ++ rest
        = front ++ ((if bare then [] else [':']) ++ (portChars port ++ '-' :: '>' ::
          (portChars container ++ '/' :: (p ++ (post ++ rest))))) := by
      rw [PortItem.chars, hfront, ← hproto]
      simp
    obtain ⟨x, y, f, hxy, hfind, hmatch⟩ := @Regex.find_upto r _ front prev
      (hr.complete (digits_portChars port) (digits_portChars container) hp)
    obtain ⟨w, hhit, hgroup⟩ := hr.sound hmatch
    have hshape : y ++ ((if bare then [] else [':']) ++ (portChars port ++ '-' :: '>' ::
        (portChars container ++ '/' :: (p ++ (post ++ rest)))))
          = ((y ++ (if bare then [] else [':'])) ++ (portChars port ++ ['-'])) ++ '>' ::
            (portChars container ++ '/' :: (p ++ (post ++ rest))) := by
      simp
    have hcolon : addressChars address = x ++ (y ++ (if bare then [] else [':'])) := by
      rw [hfront, hxy, List.append_assoc]
    rw [hshape] at hhit
    obtain ⟨a, d, p', ha, hd, hp', hbefore, hafter⟩ := hhit.around (by
      have hno := arrow_not_mem_addressChars address
      rw [hcolon] at hno
      simp only [List.mem_append, not_or] at hno ⊢
      exact ⟨hno.2, arrow_not_mem_portChars port, by decide⟩)
    have hport : w = portChars port := by
      refine Digits.eq_of_append_eq (a := a) ?_ (addressChars_suffix hcolon) hhit.digits
        (digits_portChars port) ?_
      · exact ha.imp And.right fun ⟨a', h, _⟩ => ⟨a', h⟩
      · rw [← List.append_assoc, ← List.append_assoc] at hbefore
        exact List.append_cancel_right hbefore
    obtain ⟨-, -, hrest⟩ := (digits_portChars container).append_cons_inj hd (by decide) (by decide)
      hafter
    obtain ⟨-, hpost⟩ := List.append_inj hrest ((length_of_known hp).trans (length_of_known hp').symm)
    refine ⟨f, post, hchars ▸ hfind, ?_, hpost.symm, ?_, ?_⟩
    · rw [Found.group, hgroup, hport]
      rfl
    · exact fun hmem => proto.arrow_not_mem (hproto ▸ List.mem_append_right p hmem)
    · rw [PortItem.chars, ← hproto]
      simp
      omega
  | range | unpublished => cases hread

/-- The items behind the first one. -/
def tailChars (items : List PortItem) : List Char :=
  items.flatMap fun item => ',' :: ' ' :: item.chars

theorem itemEnds_tailChars (items : List PortItem) : ItemEnds (tailChars items) := by
  cases items with
  | nil => exact Or.inl rfl
  | cons item items => exact Or.inr ⟨item.chars ++ tailChars items, rfl⟩

/-- The ports read off the items. -/
def readPorts (bare : Bool) (items : List PortItem) : List Nat := items.filterMap (PortItem.read bare)

section Reading

variable {bare : Bool} {r : Regex} (hr : ReadsPorts bare r)

include hr

theorem ReadsPorts.not_here {prev : Option Char} {cs : List Char}
    (h : ∀ w post, ¬ Hit bare cs w post) : ¬ r.Here prev cs := by
  rintro ⟨out, hout⟩
  obtain ⟨w, hhit, -⟩ := hr.sound hout
  exact h w out.rest hhit

/-- One item, when the items behind it are read behind any text without an
arrow. -/
theorem groupsFrom_item {items : List PortItem}
    (ih : ∀ junk n prev, '>' ∉ junk → (junk ++ tailChars items).length < n →
      r.groupsFrom 1 n prev (junk ++ tailChars items) = (readPorts bare items).map portChars)
    (item : PortItem) {n : Nat} (prev : Option Char)
    (hn : (item.chars ++ tailChars items).length < n) :
    r.groupsFrom 1 n prev (item.chars ++ tailChars items)
      = (readPorts bare (item :: items)).map portChars := by
  cases hread : item.read bare with
  | none =>
    rw [groupsFrom_skip item.chars fun x y hxy _ =>
      hr.not_here fun w post => item.not_hit hread hxy (itemEnds_tailChars items)]
    have hrest := ih [] n (lastOf prev item.chars) List.not_mem_nil (by simp at hn ⊢; omega)
    rw [List.nil_append] at hrest
    rw [hrest, readPorts, readPorts, List.filterMap_cons_none hread]
  | some host =>
    obtain ⟨f, post, hfind, hgroup, hstop, harrow, hlen⟩ := item.first_hit hr hread
      (tailChars items) prev
    obtain ⟨n, rfl⟩ := Nat.exists_eq_add_one_of_ne_zero (Nat.ne_of_gt (Nat.zero_lt_of_lt hn))
    have hrest := ih post n f.stop.prev harrow (by simp at hn ⊢; omega)
    rw [groupsFrom, findFrom, hfind, List.map_cons, hgroup, hstop, readPorts,
      List.filterMap_cons_some hread, List.map_cons, ← readPorts]
    exact congrArg _ hrest

/-- **A text is read item by item.** -/
theorem groupsFrom_items (items : List PortItem) : ∀ junk n prev, '>' ∉ junk →
    (junk ++ tailChars items).length < n →
      r.groupsFrom 1 n prev (junk ++ tailChars items) = (readPorts bare items).map portChars := by
  induction items with
  | nil =>
    intro junk n prev harrow hn
    have hskip := @groupsFrom_skip r [] junk prev (fun x y hxy _ =>
      hr.not_here fun w post => not_hit_of_junk (fun hmem => harrow (hxy ▸
        List.mem_append_right x hmem)) (Or.inl rfl)) 1 n
    have hnone : r.find (lastOf prev junk) [] = none := by
      rw [find, matchAt_eq_none]
      exact hr.not_here fun w post => not_hit_of_no_arrow List.not_mem_nil
    rw [tailChars, List.flatMap_nil, hskip, groupsFrom]
    cases n with
    | zero => rfl
    | succ n =>
      rw [findFrom, hnone]
      rfl
  | cons item items ih =>
    intro junk n prev harrow hn
    have happend : junk ++ tailChars (item :: items)
        = (junk ++ [',', ' ']) ++ (item.chars ++ tailChars items) := by
      simp [tailChars]
    rw [happend] at hn ⊢
    rw [groupsFrom_skip (junk ++ [',', ' ']) fun x y hxy hy => hr.not_here fun w post => ?_]
    · exact groupsFrom_item hr ih item _ (by simp at hn ⊢; omega)
    · refine not_hit_of_blank (fun hmem => ?_) ?_
      · have hjunk : '>' ∈ junk ++ [',', ' '] := hxy ▸ List.mem_append_right x hmem
        simp [harrow] at hjunk
      · obtain ⟨y', c, rfl⟩ := List.eq_nil_or_concat' y |>.resolve_left hy
        have hlast : (junk ++ [',', ' ']).getLast? = some c := by
          rw [hxy, ← List.append_assoc, List.getLast?_concat]
        rw [List.getLast?_append_cons] at hlast
        obtain rfl : ' ' = c := Option.some.inj hlast
        simp

end Reading

/-! ## §5. The extractors. -/

/-- `int` takes the digits of the port. -/
def Readable (port : Nat) : Prop := (portChars port).length ≤ Text.maxDigits

theorem chars_portsText (item : PortItem) (items : List PortItem) :
    (portsText (item :: items)).toList = item.chars ++ tailChars items := by
  rw [portsText, Text.join, String.toList_intercalate, List.map_map, List.map_cons]
  induction items generalizing item with
  | nil => simp [PortItem.text, tailChars]
  | cons next items ih =>
    rw [List.map_cons, List.intercalate_cons_cons, ih next]
    simp [PortItem.text, tailChars]

theorem groups_portsText {bare : Bool} {r : Regex} (hr : ReadsPorts bare r)
    (items : List PortItem) :
    (r.findAll (portsText items)).map (·.group 1) = (readPorts bare items).map portChars := by
  cases items with
  | nil => exact groupsFrom_items hr [] [] 1 none List.not_mem_nil Nat.one_pos
  | cons item items =>
    rw [findAll, chars_portsText]
    exact groupsFrom_item hr (groupsFrom_items hr items) item none (Nat.lt_succ_self _)

theorem mapM_intOfDigits {ports : List Nat} {ms : List Int} :
    (ports.map portChars).mapM intOfDigits = .ok ms
      ↔ (∀ p ∈ ports, Readable p) ∧ ms = ports.map Nat.cast := by
  rw [mapM_eq_ok, List.forall₂_map_left_iff]
  induction ports generalizing ms with
  | nil => simp
  | cons port ports ih =>
    rw [List.forall₂_cons_left_iff]
    constructor
    · rintro ⟨m, ms', hm, hms, rfl⟩
      obtain ⟨rfl, hread⟩ := intOfDigits_portChars.mp hm
      obtain ⟨hall, rfl⟩ := ih.mp hms
      exact ⟨List.forall_mem_cons.mpr ⟨hread, hall⟩, rfl⟩
    · rintro ⟨hall, rfl⟩
      obtain ⟨hread, hall⟩ := List.forall_mem_cons.mp hall
      exact ⟨port, _, intOfDigits_portChars.mpr ⟨rfl, hread⟩, ih.mpr ⟨hall, rfl⟩, rfl⟩

/-- What a pattern reads off a text of items, as integers. -/
theorem mapM_findAll {bare : Bool} {r : Regex} (hr : ReadsPorts bare r) {items : List PortItem}
    {ms : List Int} :
    ((r.findAll (portsText items)).mapM fun found => intOfDigits (found.group 1)) = .ok ms
      ↔ (∀ p ∈ readPorts bare items, Readable p) ∧ ms = (readPorts bare items).map Nat.cast := by
  rw [← mapM_intOfDigits, ← groups_portsText hr, List.mapM_map]
  rfl

theorem extractDockerPorts_eq_ok {items : List PortItem} {ports : List Int} :
    extractDockerPorts (portsText items) = .ok ports
      ↔ (∀ p ∈ readPorts false items, Readable p)
        ∧ ports = mergeUniqueInts ((readPorts false items).map Nat.cast) [] := by
  constructor
  · intro h
    obtain ⟨ms, hms, h⟩ := bind_eq_ok.mp h
    obtain ⟨hall, rfl⟩ := (mapM_findAll readsPorts_docker).mp hms
    exact ⟨hall, (pure_eq_ok.mp h).symm⟩
  · rintro ⟨hall, rfl⟩
    exact bind_eq_ok.mpr ⟨_, (mapM_findAll readsPorts_docker).mpr ⟨hall, rfl⟩, rfl⟩

/-- The container with these ports. -/
def containerWith (name image : String) (items : List PortItem) : ContainerRecord :=
  ⟨name, image, items.map PortItem.text⟩

theorem mapM_mappings {items : List PortItem} {pss : List (List Int)} :
    ((items.map PortItem.text).mapM fun mapping =>
      (containerPort.findAll mapping).mapM fun found => intOfDigits (found.group 1)) = .ok pss
      ↔ (∀ p ∈ readPorts true items, Readable p)
        ∧ pss = items.map fun item => (readPorts true [item]).map Nat.cast := by
  have hitem : ∀ {item : PortItem} {ms : List Int},
      ((containerPort.findAll item.text).mapM fun found => intOfDigits (found.group 1)) = .ok ms
        ↔ (∀ p ∈ readPorts true [item], Readable p)
          ∧ ms = (readPorts true [item]).map Nat.cast := by
    intro item ms
    rw [← mapM_findAll readsPorts_container, portsText, List.map_singleton, Text.join,
      String.intercalate_singleton]
  rw [mapM_eq_ok, List.forall₂_map_left_iff]
  induction items generalizing pss with
  | nil => simp [readPorts]
  | cons item items ih =>
    have hread : readPorts true (item :: items) = readPorts true [item] ++ readPorts true items :=
      List.filterMap_append (l := [item])
    rw [List.forall₂_cons_left_iff, hread, List.forall_mem_append]
    constructor
    · rintro ⟨ms, pss', hms, hpss, rfl⟩
      obtain ⟨hall, rfl⟩ := hitem.mp hms
      obtain ⟨hrest, rfl⟩ := ih.mp hpss
      exact ⟨⟨hall, hrest⟩, rfl⟩
    · rintro ⟨⟨hall, hrest⟩, rfl⟩
      exact ⟨_, _, hitem.mpr ⟨hall, rfl⟩, ih.mpr ⟨hrest, rfl⟩, rfl⟩

theorem containerHostPorts_eq_ok {name image : String} {items : List PortItem} {ports : List Int} :
    containerHostPorts (containerWith name image items) = .ok ports
      ↔ (∀ p ∈ readPorts true items, Readable p)
        ∧ ports = mergeUniqueInts ((readPorts true items).map Nat.cast) [] := by
  have hflat : (items.map fun item => (readPorts true [item]).map (Nat.cast : Nat → Int)).flatten
      = (readPorts true items).map Nat.cast := by
    induction items with
    | nil => rfl
    | cons item items ih =>
      have hread : readPorts true (item :: items) = readPorts true [item] ++ readPorts true items :=
        List.filterMap_append (l := [item])
      rw [List.map_cons, List.flatten_cons, ih, hread, List.map_append]
  constructor
  · intro h
    obtain ⟨pss, hpss, h⟩ := bind_eq_ok.mp h
    obtain ⟨hall, rfl⟩ := mapM_mappings.mp hpss
    exact ⟨hall, by rw [← pure_eq_ok.mp h, hflat]⟩
  · rintro ⟨hall, rfl⟩
    exact bind_eq_ok.mpr ⟨_, mapM_mappings.mpr ⟨hall, rfl⟩, by rw [hflat]; rfl⟩

/-- What is read is published. -/
theorem published_of_mem_readPorts {bare : Bool} {items : List PortItem} {n : Nat}
    (h : n ∈ readPorts bare items) : ∃ item ∈ items, n ∈ item.hostPorts := by
  obtain ⟨item, hitem, hread⟩ := List.mem_filterMap.mp h
  refine ⟨item, hitem, ?_⟩
  cases item with
  | published address host container proto =>
    rw [PortItem.read, Option.ite_none_right_eq_some] at hread
    rw [PortItem.hostPorts, Option.some.inj hread.2]
    exact List.mem_singleton_self n
  | range | unpublished => cases hread

/-- **An extractor is right** exactly when it reads every published port. -/
theorem isPublished_iff {bare : Bool} {items : List PortItem} {result : Except PyError (List Int)}
    (h : ∀ ports, result = .ok ports ↔ (∀ p ∈ readPorts bare items, Readable p)
      ∧ ports = mergeUniqueInts ((readPorts bare items).map Nat.cast) []) :
    IsPublished result items ↔
      ∀ item ∈ items, ∀ n ∈ item.hostPorts, Readable n ∧ n ∈ readPorts bare items := by
  have hmem : ∀ n : Nat, (n : Int) ∈ mergeUniqueInts ((readPorts bare items).map Nat.cast) []
      ↔ n ∈ readPorts bare items := by
    intro n
    rw [mem_mergeUniqueInts, List.mem_map]
    constructor
    · rintro (⟨m, hm, heq⟩ | hnil)
      · rwa [← Int.ofNat.inj heq]
      · cases hnil
    · exact fun hn => Or.inl ⟨n, hn, rfl⟩
  constructor
  · rintro ⟨ports, hok, -, hports⟩ item hitem n hn
    obtain ⟨hall, rfl⟩ := (h ports).mp hok
    have hread := (hmem n).mp ((hports n).mpr ⟨item, hitem, n, hn, rfl⟩)
    exact ⟨hall n hread, hread⟩
  · intro hall
    refine ⟨_, (h _).mpr ⟨fun p hp => ?_, rfl⟩, mergeUniqueInts_sorted _ _, fun port => ?_⟩
    · obtain ⟨item, hitem, hn⟩ := published_of_mem_readPorts hp
      exact (hall item hitem p hn).1
    · constructor
      · intro hport
        rw [mem_mergeUniqueInts, List.mem_map] at hport
        obtain ⟨n, hn, rfl⟩ := hport.resolve_right List.not_mem_nil
        obtain ⟨item, hitem, hmem⟩ := published_of_mem_readPorts hn
        exact ⟨item, hitem, n, hmem, rfl⟩
      · rintro ⟨item, hitem, n, hn, rfl⟩
        exact (hmem n).mpr (hall item hitem n hn).2

/-- The port is published behind an address, alone and over TCP or UDP. -/
def PlainlyPublished (items : List PortItem) (port : Nat) : Prop :=
  ∃ address container proto, .published (some address) port container proto ∈ items ∧ proto.Known

theorem mem_readPorts_false {items : List PortItem} {port : Nat} :
    port ∈ readPorts false items ↔ PlainlyPublished items port := by
  rw [readPorts, List.mem_filterMap]
  constructor
  · rintro ⟨item, hitem, hread⟩
    cases item with
    | published address host container proto =>
      rw [PortItem.read, Option.ite_none_right_eq_some] at hread
      obtain ⟨⟨hform, hknown⟩, hsome⟩ := hread
      obtain ⟨address, rfl⟩ := Option.isSome_iff_exists.mp (by simpa using hform)
      rw [Option.some.inj hsome] at hitem
      exact ⟨address, container, proto, hitem, hknown⟩
    | range | unpublished => cases hread
  · rintro ⟨address, container, proto, hitem, hknown⟩
    exact ⟨_, hitem, by rw [PortItem.read, if_pos ⟨Or.inr rfl, hknown⟩]⟩

/-- What the extractor of texts reads, the extractor of items reads. -/
theorem readPorts_subset (items : List PortItem) : readPorts false items ⊆ readPorts true items := by
  intro port hport
  obtain ⟨address, container, proto, hitem, hknown⟩ := mem_readPorts_false.mp hport
  exact List.mem_filterMap.mpr ⟨_, hitem, by rw [PortItem.read, if_pos ⟨Or.inl rfl, hknown⟩]⟩

/-- **Both extractors read exactly the published ports** if and only if each of
these is short enough for `int` and published behind an address, alone and over
TCP or UDP. -/
theorem ports_extracted_iff (items : List PortItem) :
    (IsPublished (extractDockerPorts (portsText items)) items
      ∧ ∀ name image, IsPublished (containerHostPorts (containerWith name image items)) items)
      ↔ ∀ item ∈ items, ∀ port ∈ item.hostPorts, Readable port ∧ PlainlyPublished items port := by
  have htext := @isPublished_iff false items _ fun ports =>
    @extractDockerPorts_eq_ok _ ports
  constructor
  · rintro ⟨h, -⟩ item hitem port hport
    exact (htext.mp h item hitem port hport).imp id mem_readPorts_false.mp
  · intro h
    have hread : ∀ item ∈ items, ∀ port ∈ item.hostPorts,
        Readable port ∧ port ∈ readPorts false items := fun item hitem port hport =>
      (h item hitem port hport).imp id mem_readPorts_false.mpr
    refine ⟨htext.mpr hread, fun name image => ?_⟩
    refine (@isPublished_iff true _ _ fun ports => containerHostPorts_eq_ok).mpr ?_
    exact fun item hitem port hport =>
      (hread item hitem port hport).imp id (fun hmem => readPorts_subset items hmem)

/-- Two ports published as a range. -/
def publishedRange : PortItem :=
  .range (some ⟨"0.0.0.0", by decide, by decide⟩) 8000 8001 8000 8001 ⟨"tcp", by decide, by decide⟩

theorem range_not_extracted :
    ¬ (IsPublished (extractDockerPorts (portsText [publishedRange])) [publishedRange]
      ∧ ∀ name image, IsPublished
        (containerHostPorts (containerWith name image [publishedRange])) [publishedRange]) := by
  rintro ⟨⟨ports, hok, -, hports⟩, -⟩
  have hnone : (extractDockerPorts (portsText [publishedRange])).toOption = some [] := by
    decide +kernel
  rw [hok] at hnone
  have hmem := (hports 8000).mpr ⟨publishedRange, List.mem_singleton_self _, 8000, by decide, rfl⟩
  rw [Option.some.inj hnone] at hmem
  cases hmem

end Hmn
