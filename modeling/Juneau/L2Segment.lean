import Mathlib.Algebra.GroupWithZero.Nat
import Mathlib.Data.List.Nodup
import Mathlib.Tactic.SplitIfs
import Juneau.L2Learning

namespace Juneau.L2Segment

open Function

def l2GwMaxHops : Nat := 4

def l2ArpAskerTtlNs : BitVec 64 := 5000000000

inductive ArpOp
  | request
  | reply
  | other
  deriving DecidableEq, Repr

structure ArpPart where
  op : ArpOp
  sender : BitVec 32
  target : BitVec 32
  deriving DecidableEq, Repr

structure Frame where
  src : BitVec 48
  dst : BitVec 48
  arp : Option ArpPart
  deriving DecidableEq, Repr

def l2IsBum (dst : BitVec 48) : Bool := dst.getLsbD 40

/-- A copy that leaves a program: to a device, on its ingress for a gateway port, or with a tunnel
key to a Node. -/
inductive Copy
  | port (ifindex : BitVec 32) (ingress : Bool)
  | overlay (vtep : BitVec 32)
  deriving DecidableEq, Repr

def Copy.device : Copy → Option (BitVec 32)
  | .port ifindex _ => some ifindex
  | .overlay _ => none

def Copy.remote : Copy → Option (BitVec 32)
  | .port _ _ => none
  | .overlay vtep => some vtep

/-- What one frame meets on a Node: the maps by VNI, a hash map's keys being distinct, the hops its
mark counts there and the copies the helpers fail to make. -/
structure L2Node where
  vtep : BitVec 32
  ports : BitVec 32 → Option (BitVec 32)
  networks : BitVec 32 → Bool
  fdb : BitVec 32 → Option (BitVec 48 → Option L2FdbVal)
  bumLocal : BitVec 32 → Option (List (BitVec 32 × Bool))
  bumRemote : BitVec 32 → Option (List (BitVec 32))
  gateway : BitVec 32 → Option (BitVec 48)
  askers : BitVec 32 → BitVec 32 → Option (BitVec 32 × BitVec 64)
  vxlanIfindex : BitVec 32
  now : BitVec 64
  hops : Nat
  lost : Copy → Bool
  local_nodup : ∀ vni l, bumLocal vni = some l → (l.map Prod.fst).Nodup
  remote_nodup : ∀ vni l, bumRemote vni = some l → l.Nodup

structure L2Port where
  vni : BitVec 32
  inIfindex : BitVec 32
  fromOverlay : Bool

def l2FloodLocal (port : L2Port) (gatewayOnly : Bool) : Nat → List (BitVec 32 × Bool) → List Copy
  | _, [] => []
  | hops, (ifindex, gateway) :: rest =>
    if ifindex = port.inIfindex then l2FloodLocal port gatewayOnly hops rest
    else if gateway then
      if port.fromOverlay then l2FloodLocal port gatewayOnly hops rest
      else if l2GwMaxHops ≤ hops then l2FloodLocal port gatewayOnly hops rest
      else .port ifindex true :: l2FloodLocal port gatewayOnly (hops + 1) rest
    else if gatewayOnly then l2FloodLocal port gatewayOnly hops rest
    else .port ifindex false :: l2FloodLocal port gatewayOnly hops rest

namespace L2Node

variable (n : L2Node)

def floodVteps (vni asker : BitVec 32) : List (BitVec 32) :=
  let remote := (n.bumRemote vni).getD []
  if asker ≠ 0 ∧ ¬ remote.contains asker then remote ++ [asker] else remote

def l2FloodPorts (port : L2Port) (gatewayOnly : Bool) (asker : BitVec 32) : List Copy :=
  let here := l2FloodLocal port gatewayOnly n.hops ((n.bumLocal port.vni).getD [])
  if port.fromOverlay then here
  else if n.bumRemote port.vni = none ∧ asker = 0 then here
  else if n.vxlanIfindex = 0 then here
  else here ++ (n.floodVteps port.vni asker).map .overlay

def l2ForwardUnicast (table : BitVec 48 → Option L2FdbVal) (dst : BitVec 48) (port : L2Port) :
    Option (List Copy) :=
  match table dst with
  | none => none
  | some entry =>
    if entry.ifindex ≠ 0 then
      if entry.ifindex = port.inIfindex then some []
      else if entry.isGateway then
        if l2GwMaxHops ≤ n.hops then some [] else some [.port entry.ifindex true]
      else some [.port entry.ifindex false]
    else if port.fromOverlay then none
    else if n.vxlanIfindex = 0 then some []
    else some [.overlay entry.vtepIP]

def learned (table : BitVec 48 → Option L2FdbVal) (mac : BitVec 48) (ifindex vtepIP : BitVec 32) :
    BitVec 48 → Option L2FdbVal :=
  match l2Learn mac ifindex vtepIP n.now (table mac) with
  | .idle => table
  | .refresh now => update table mac ((table mac).map fun v => { v with lastSeenNs := now })
  | .update mac val => update table mac (some val)

def answerToGateway (vni : BitVec 32) (f : Frame) : Bool :=
  f.arp.any (·.op = .reply) && n.gateway vni = some f.dst

def l2ArpRecallAsker (vni target : BitVec 32) : BitVec 32 :=
  match n.askers vni target with
  | none => 0
  | some (vtep, asked) => if l2ArpAskerTtlNs ≤ n.now - asked then 0 else vtep

def l2Place (table : BitVec 48 → Option L2FdbVal) (port : L2Port) (f : Frame) : List Copy :=
  match if l2IsBum f.dst then none else n.l2ForwardUnicast table f.dst port with
  | some out => out
  | none => n.l2FloodPorts port false 0

/-- `handle` of l2_egress. -/
def l2Egress (inIfindex : BitVec 32) (f : Frame) : List Copy :=
  match n.ports inIfindex with
  | none => []
  | some vni =>
    if !n.networks vni then []
    else match n.fdb vni with
      | none => []
      | some table =>
        let port := ⟨vni, inIfindex, false⟩
        if n.answerToGateway vni f then n.l2FloodPorts port true (n.l2ArpRecallAsker vni ((f.arp.map ArpPart.sender).getD 0))
        else n.l2Place (n.learned table f.src inIfindex 0) port f

def handleL2Overlay (vni : BitVec 32) (f : Frame) (remoteVtep : BitVec 32) : List Copy :=
  match n.fdb vni with
  | none => []
  | some table =>
    if n.answerToGateway vni f then [] else n.l2Place (n.learned table f.src 0 remoteVtep) ⟨vni, 0, true⟩ f

def vxlanIngress (tunnelID : BitVec 32) (f : Frame) (remoteVtep : BitVec 32) : List Copy :=
  let vni := tunnelID &&& 0xFFFFFF
  -- without the network the frame takes the Subnet or External path, which have no port of the segment
  if n.networks vni then n.handleL2Overlay vni f remoteVtep else []

def made (out : List Copy) : List Copy := out.filter fun c => !n.lost c

def NamesOthers : Prop :=
  (∀ vni table, n.fdb vni = some table → ∀ mac v, table mac = some v →
    v.ifindex = 0 → v.vtepIP ≠ n.vtep) ∧
  (∀ vni l, n.bumRemote vni = some l → n.vtep ∉ l) ∧
  ∀ vni target vtep asked, n.askers vni target = some (vtep, asked) → vtep ≠ n.vtep

end L2Node

structure L2Net (ι : Type) where
  node : ι → L2Node
  nodeAt : BitVec 32 → Option ι
  nodeAt_vtep : ∀ v i, nodeAt v = some i → (node i).vtep = v

/-- The copies a port gets of what a Node puts out, with that many hops over the overlay. -/
def L2Net.copies {ι : Type} [DecidableEq ι] (net : L2Net ι) (vni : BitVec 32) (f : Frame) :
    Nat → ι → List Copy → ι → BitVec 32 → Nat
  | 0, i, out, j, p => if i = j then (out.filterMap Copy.device).count p else 0
  | rounds + 1, i, out, j, p =>
    (if i = j then (out.filterMap Copy.device).count p else 0) +
      (((out.filterMap Copy.remote).filterMap net.nodeAt).map fun i' =>
        net.copies vni f rounds i' ((net.node i').made ((net.node i').vxlanIngress vni f (net.node i).vtep)) j p).sum

/-- Each device gets at most one copy and `skip` none, and each Node at most one and `own` none. -/
structure Once (skip own : BitVec 32) (out : List Copy) : Prop where
  device : (out.filterMap Copy.device).Nodup
  skipped : skip ∉ out.filterMap Copy.device
  remote : (out.filterMap Copy.remote).Nodup
  others : own ∉ out.filterMap Copy.remote

variable {skip : BitVec 32} {out : List Copy}

section Programs

variable {n : L2Node} {port : L2Port} {own : BitVec 32}

theorem once_nil : Once skip own [] :=
  ⟨List.nodup_nil, List.not_mem_nil, List.nodup_nil, List.not_mem_nil⟩

theorem once_port {ifindex : BitVec 32} {ingress : Bool} (h : ifindex ≠ skip) :
    Once skip own [.port ifindex ingress] :=
  ⟨List.nodup_singleton _, fun hmem => h (List.mem_singleton.mp hmem).symm,
    List.nodup_nil, List.not_mem_nil⟩

theorem Once.made (h : Once skip own out) : Once skip own (n.made out) := by
  have hsub : (n.made out).Sublist out := List.filter_sublist
  exact ⟨h.device.sublist (hsub.filterMap _),
    fun hmem => h.skipped ((hsub.filterMap _).subset hmem),
    h.remote.sublist (hsub.filterMap _), fun hmem => h.others ((hsub.filterMap _).subset hmem)⟩

theorem floodLocal_spec (port : L2Port) (gatewayOnly : Bool) (hops : Nat)
    (members : List (BitVec 32 × Bool)) :
    ((l2FloodLocal port gatewayOnly hops members).filterMap Copy.device).Sublist
      ((members.map Prod.fst).filter (· ≠ port.inIfindex)) ∧
    (l2FloodLocal port gatewayOnly hops members).filterMap Copy.remote = [] := by
  induction members generalizing hops with
  | nil => exact ⟨.slnil, rfl⟩
  | cons m members ih =>
    obtain ⟨ifindex, gateway⟩ := m
    unfold l2FloodLocal
    by_cases hskip : ifindex = port.inIfindex
    · simpa [hskip] using ih hops
    · have hkeep : (((ifindex, gateway) :: members).map Prod.fst).filter (· ≠ port.inIfindex) =
          ifindex :: (members.map Prod.fst).filter (· ≠ port.inIfindex) := by simp [hskip]
      rw [hkeep, if_neg hskip]
      split_ifs
      · exact ⟨(ih hops).1.cons _, (ih hops).2⟩
      · exact ⟨(ih hops).1.cons _, (ih hops).2⟩
      · exact ⟨(ih (hops + 1)).1.cons_cons _, (ih (hops + 1)).2⟩
      · exact ⟨(ih hops).1.cons _, (ih hops).2⟩
      · exact ⟨(ih hops).1.cons_cons _, (ih hops).2⟩

theorem filterMap_overlay (vteps : List (BitVec 32)) :
    (vteps.map Copy.overlay).filterMap Copy.device = [] ∧
    (vteps.map Copy.overlay).filterMap Copy.remote = vteps := by
  refine ⟨?_, ?_⟩
  · simp [List.filterMap_map, comp_def, Copy.device]
  · simp [List.filterMap_map, comp_def, Copy.remote]

theorem once_local (n : L2Node) (port : L2Port) (own : BitVec 32) (gatewayOnly : Bool) :
    Once port.inIfindex own
    (l2FloodLocal port gatewayOnly n.hops ((n.bumLocal port.vni).getD [])) := by
  obtain ⟨hdevice, hremote⟩ :=
    floodLocal_spec port gatewayOnly n.hops ((n.bumLocal port.vni).getD [])
  have hnodup : (((n.bumLocal port.vni).getD []).map Prod.fst).Nodup := by
    cases hl : n.bumLocal port.vni with
    | none => exact List.nodup_nil
    | some l => exact n.local_nodup _ l hl
  refine ⟨(hnodup.filter _).sublist hdevice, fun hmem => ?_, ?_, ?_⟩
  · have hne := (List.mem_filter.mp (hdevice.subset hmem)).2
    exact of_decide_eq_true hne rfl
  · rw [hremote]
    exact List.nodup_nil
  · rw [hremote]
    exact List.not_mem_nil

theorem floodVteps_spec {vni asker : BitVec 32} (hremote : ∀ l, n.bumRemote vni = some l → own ∉ l)
    (hasker : asker ≠ 0 → asker ≠ own) :
    (n.floodVteps vni asker).Nodup ∧ own ∉ n.floodVteps vni asker := by
  have hlist : ((n.bumRemote vni).getD []).Nodup ∧ own ∉ (n.bumRemote vni).getD [] := by
    cases hl : n.bumRemote vni with
    | none => exact ⟨List.nodup_nil, List.not_mem_nil⟩
    | some l => exact ⟨n.remote_nodup _ l hl, hremote l hl⟩
  unfold L2Node.floodVteps
  dsimp only
  split_ifs with hask
  · refine ⟨List.nodup_append.mpr ⟨hlist.1, List.nodup_singleton _, fun v hv w hw => ?_⟩, fun hmem => ?_⟩
    · cases List.mem_singleton.mp hw
      exact fun heq => hask.2 (List.contains_iff_mem.mpr (heq ▸ hv))
    · obtain hmem | hmem := List.mem_append.mp hmem
      · exact hlist.2 hmem
      · exact hasker hask.1 (List.mem_singleton.mp hmem).symm
  · exact hlist

theorem once_flood (port : L2Port) (gatewayOnly : Bool) {asker : BitVec 32}
    (hremote : port.fromOverlay = false → ∀ l, n.bumRemote port.vni = some l → own ∉ l)
    (hasker : asker ≠ 0 → asker ≠ own) :
    Once port.inIfindex own (n.l2FloodPorts port gatewayOnly asker) := by
  have hlocal := once_local n port own gatewayOnly
  have hwalk := (floodLocal_spec port gatewayOnly n.hops ((n.bumLocal port.vni).getD [])).2
  obtain ⟨hdevices, hremotes⟩ := filterMap_overlay (n.floodVteps port.vni asker)
  unfold L2Node.l2FloodPorts
  dsimp only
  split_ifs with hover
  · exact hlocal
  · exact hlocal
  · exact hlocal
  · obtain ⟨hnodup, hown⟩ := floodVteps_spec (hremote (Bool.eq_false_iff.mpr hover)) hasker
    refine ⟨?_, ?_, ?_, ?_⟩ <;> rw [List.filterMap_append]
    · rw [hdevices, List.append_nil]
      exact hlocal.device
    · rw [hdevices, List.append_nil]
      exact hlocal.skipped
    · rw [hremotes, hwalk, List.nil_append]
      exact hnodup
    · rw [hremotes, hwalk, List.nil_append]
      exact hown

variable {table : BitVec 48 → Option L2FdbVal}

theorem once_unicast {dst : BitVec 48}
    (hentry : ∀ v, table dst = some v → v.ifindex = 0 → port.fromOverlay = false → v.vtepIP ≠ own)
    (h : n.l2ForwardUnicast table dst port = some out) : Once port.inIfindex own out := by
  unfold L2Node.l2ForwardUnicast at h
  cases hdst : table dst with
  | none =>
    rw [hdst] at h
    cases h
  | some entry =>
    simp only [hdst] at h
    split_ifs at h with hlocal hin _ _ hover <;> cases h
    · exact once_nil
    · exact once_nil
    · exact once_port hin
    · exact once_port hin
    · exact once_nil
    · have hne := hentry entry hdst (not_not.mp hlocal) (Bool.eq_false_iff.mpr hover)
      exact ⟨List.nodup_nil, List.not_mem_nil, List.nodup_singleton _, fun hmem => hne (List.mem_singleton.mp hmem).symm⟩

theorem once_place (port : L2Port) {f : Frame}
    (hentry : ∀ v, table f.dst = some v → v.ifindex = 0 → port.fromOverlay = false → v.vtepIP ≠ own)
    (hremote : port.fromOverlay = false → ∀ l, n.bumRemote port.vni = some l → own ∉ l) :
    Once port.inIfindex own (n.l2Place table port f) := by
  unfold L2Node.l2Place
  split
  next out hout =>
    split_ifs at hout
    exact once_unicast hentry hout
  · exact once_flood port false hremote fun h => absurd rfl h

theorem place_overlay {f : Frame} (h : port.fromOverlay = true) :
    (n.l2Place table port f).filterMap Copy.remote = [] := by
  unfold L2Node.l2Place
  split
  next out hout =>
    split_ifs at hout
    unfold L2Node.l2ForwardUnicast at hout
    split at hout
    · cases hout
    · split_ifs at hout with _ _ _ _ <;> cases hout <;> rfl
  · unfold L2Node.l2FloodPorts
    rw [if_pos h]
    exact (floodLocal_spec port false n.hops _).2

theorem once_vxlanIngress (n : L2Node) (own tunnelID remoteVtep : BitVec 32) (f : Frame) :
    Once 0 own (n.vxlanIngress tunnelID f remoteVtep) ∧
      (n.vxlanIngress tunnelID f remoteVtep).filterMap Copy.remote = [] := by
  unfold L2Node.vxlanIngress L2Node.handleL2Overlay
  dsimp only
  split
  · split
    · exact ⟨once_nil, rfl⟩
    · split
      · exact ⟨once_nil, rfl⟩
      · exact ⟨once_place ⟨_, 0, true⟩ (fun _ _ _ h => (by cases h)) (fun h => (by cases h)), place_overlay rfl⟩
  · exact ⟨once_nil, rfl⟩

theorem l2Learn_at_port {mac mac' : BitVec 48} {ifindex : BitVec 32}
    {now : BitVec 64} {found : Option L2FdbVal} {val : L2FdbVal}
    (h : l2Learn mac ifindex 0 now found = .update mac' val) : val.ifindex ≠ 0 := by
  unfold l2Learn at h
  split at h
  · cases h
  next hport =>
    have hne : ifindex ≠ 0 := fun h => hport ⟨h, rfl⟩
    split at h
    · cases h
      exact hne
    · split_ifs at h
      cases h
      exact hne

theorem learned_at_port {src mac : BitVec 48} {inIfindex : BitVec 32}
    (htable : ∀ mac v, table mac = some v → v.ifindex = 0 → v.vtepIP ≠ own) {v : L2FdbVal}
    (h : n.learned table src inIfindex 0 mac = some v) (hv : v.ifindex = 0) : v.vtepIP ≠ own := by
  unfold L2Node.learned at h
  cases hl : l2Learn src inIfindex 0 n.now (table src) with
  | idle =>
    rw [hl] at h
    exact htable mac v h hv
  | refresh now =>
    rw [hl] at h
    dsimp only at h
    by_cases hmac : mac = src
    · subst hmac
      rw [update_self] at h
      obtain ⟨v', hv', rfl⟩ := Option.map_eq_some_iff.mp h
      exact htable mac v' hv' hv
    · rw [update_of_ne hmac] at h
      exact htable mac v h hv
  | update mac' val =>
    rw [hl] at h
    dsimp only at h
    by_cases hmac : mac = mac'
    · subst hmac
      rw [update_self] at h
      cases h
      exact absurd hv (l2Learn_at_port hl)
    · rw [update_of_ne hmac] at h
      exact htable mac v h hv

theorem once_l2Egress (hown : n.NamesOthers) (inIfindex : BitVec 32) (f : Frame) :
    Once inIfindex n.vtep (n.l2Egress inIfindex f) := by
  obtain ⟨hfdb, hremote, hasker⟩ := hown
  unfold L2Node.l2Egress
  split
  · exact once_nil
  next vni _ =>
    split
    · exact once_nil
    · split
      · exact once_nil
      next table htable =>
        dsimp only
        split
        · refine once_flood ⟨vni, inIfindex, false⟩ true (fun _ => hremote vni) fun hne heq => ?_
          unfold L2Node.l2ArpRecallAsker at hne heq
          split at hne
          · exact hne rfl
          next vtep asked hat =>
            simp only [hat] at heq hne
            split_ifs at hne heq
            · exact hne rfl
            · exact hasker vni _ vtep asked hat heq
        · exact once_place ⟨vni, inIfindex, false⟩ (fun v hv hzero _ =>
            learned_at_port (hfdb vni table htable) hv hzero) fun _ => hremote vni

end Programs

variable {ι : Type} [DecidableEq ι] (net : L2Net ι)

theorem count_made_le {n : L2Node} {own p : BitVec 32} (h : Once skip own out) :
    ((n.made out).filterMap Copy.device).count p ≤ 1 :=
  List.nodup_iff_count_le_one.mp h.made.device p

theorem copies_vxlanIngress (vni remoteVtep : BitVec 32) (f : Frame) (rounds : Nat)
    (i j : ι) (p : BitVec 32) : net.copies vni f rounds i ((net.node i).made
    ((net.node i).vxlanIngress vni f remoteVtep)) j p ≤ if i = j then 1 else 0 := by
  obtain ⟨honce, hstays⟩ := once_vxlanIngress (net.node i) 0 vni remoteVtep f
  have hown : (if i = j then (((net.node i).made
    ((net.node i).vxlanIngress vni f remoteVtep)).filterMap Copy.device).count p else 0) ≤
      if i = j then 1 else 0 := by
    split_ifs
    · exact count_made_le honce
    · exact Nat.le_refl _
  have hnone : ((net.node i).made
    ((net.node i).vxlanIngress vni f remoteVtep)).filterMap Copy.remote = [] := by
    refine List.eq_nil_iff_forall_not_mem.mpr fun v hv => ?_
    have hmem := (List.filter_sublist.filterMap Copy.remote).subset hv
    rw [hstays] at hmem
    cases hmem
  cases rounds with
  | zero => exact hown
  | succ rounds =>
    unfold L2Net.copies
    rw [hnone]
    exact hown

theorem sum_at_le {l : List ι} {j : ι} {f : ι → Nat} (hf : ∀ i, f i ≤ if i = j then 1 else 0) :
    (l.map f).sum ≤ l.count j := by
  induction l with
  | nil => exact Nat.le_refl _
  | cons i l ih =>
    rw [List.map_cons, List.sum_cons, List.count_cons]
    have hi := hf i
    simp only [beq_iff_eq]
    omega

omit [DecidableEq ι] in
theorem nodup_nodesAt {vteps : List (BitVec 32)} (h : vteps.Nodup) :
    (vteps.filterMap net.nodeAt).Nodup := by
  refine h.filterMap fun v v' i hv hv' => ?_
  rw [← net.nodeAt_vtep v i hv, ← net.nodeAt_vtep v' i hv']

/-- Whatever the tables hold, a port gets at most one copy of a frame that enters at a port of the
segment, the entering port none, and no Node puts a frame of the overlay back on it. -/
theorem segment_frame_once (hown : ∀ i, (net.node i).NamesOthers) (i : ι)
    (inIfindex vni : BitVec 32) (f : Frame) (rounds : Nat) : (∀ j p, net.copies vni f rounds i
    ((net.node i).made ((net.node i).l2Egress inIfindex f)) j p ≤ 1) ∧ net.copies vni f rounds i
    ((net.node i).made ((net.node i).l2Egress inIfindex f)) i inIfindex = 0 ∧
    ∀ j tunnelID remoteVtep v, .overlay v ∉ (net.node j).vxlanIngress tunnelID f remoteVtep := by
  have honce := once_l2Egress (hown i) inIfindex f
  have hsent := honce.made (n := net.node i)
  generalize (net.node i).made ((net.node i).l2Egress inIfindex f) = out at hsent
  -- the Nodes the copies reach, each once and not the one the frame entered at
  have hnodes : ((out.filterMap Copy.remote).filterMap net.nodeAt).Nodup :=
    nodup_nodesAt net hsent.remote
  have hother : i ∉ (out.filterMap Copy.remote).filterMap net.nodeAt := by
    intro hmem
    obtain ⟨v, hv, hat⟩ := List.mem_filterMap.mp hmem
    rw [← net.nodeAt_vtep v i hat] at hv
    exact hsent.others hv
  have hcount : ∀ p, (out.filterMap Copy.device).count p ≤ 1 :=
    List.nodup_iff_count_le_one.mp hsent.device
  have hskip : (out.filterMap Copy.device).count inIfindex = 0 :=
    List.count_eq_zero.mpr hsent.skipped
  have hrelayed : ∀ rounds j p, (((out.filterMap Copy.remote).filterMap net.nodeAt).map fun i' =>
      net.copies vni f rounds i' ((net.node i').made ((net.node i').vxlanIngress vni f (net.node i).vtep)) j p).sum ≤
        ((out.filterMap Copy.remote).filterMap net.nodeAt).count j :=
    fun rounds j p => sum_at_le fun i' => copies_vxlanIngress net vni _ f rounds i' j p
  have hnone : ((out.filterMap Copy.remote).filterMap net.nodeAt).count i = 0 :=
    List.count_eq_zero.mpr hother
  refine ⟨fun j p => ?_, ?_, fun j tunnelID remoteVtep v hmem => ?_⟩
  · cases rounds with
    | zero =>
      unfold L2Net.copies
      split_ifs
      · exact hcount p
      · exact Nat.zero_le _
    | succ rounds =>
      unfold L2Net.copies
      have hj := List.nodup_iff_count_le_one.mp hnodes j
      have hr := hrelayed rounds j p
      split_ifs with hij
      · subst hij
        have hp := hcount p
        omega
      · omega
  · cases rounds with
    | zero =>
      unfold L2Net.copies
      rw [if_pos rfl, hskip]
    | succ rounds =>
      unfold L2Net.copies
      have hr := hrelayed rounds i inIfindex
      rw [if_pos rfl, hskip]
      omega
  · have hstays := (once_vxlanIngress (net.node j) 0 tunnelID remoteVtep f).2
    have hv : v ∈ ((net.node j).vxlanIngress tunnelID f remoteVtep).filterMap Copy.remote :=
      List.mem_filterMap.mpr ⟨_, hmem, rfl⟩
    rw [hstays] at hv
    cases hv

def segmentNode (vtep peer : BitVec 32) : L2Node where
  vtep := vtep
  ports _ := some 100
  networks _ := true
  fdb _ := some fun _ => none
  bumLocal _ := some [(5, false), (6, false), (7, true)]
  bumRemote _ := some [peer]
  gateway _ := some 0x2A
  askers _ _ := none
  vxlanIfindex := 3
  now := 0
  hops := 0
  lost _ := false
  local_nodup _ l hl := by cases hl; decide
  remote_nodup _ l hl := by cases hl; exact List.nodup_singleton _

def twoNodes : L2Net Bool where
  node i := if i then segmentNode 1 2 else segmentNode 2 1
  nodeAt v := if v = 1 then some true else if v = 2 then some false else none
  nodeAt_vtep v i h := by
    split_ifs at h with h1 h2 <;> cases h
    · exact h1.symm
    · exact h2.symm

def broadcast : Frame := ⟨0x11, 0xFFFFFFFFFFFF, none⟩

theorem broadcast_once : (∀ i, (twoNodes.node i).NamesOthers) ∧
    (∀ p ∈ [(true, 6), (true, 7), (false, 5), (false, 6)], twoNodes.copies 100 broadcast 2 true
      ((twoNodes.node true).made ((twoNodes.node true).l2Egress 5 broadcast)) p.1 p.2 = 1) ∧
    twoNodes.copies 100 broadcast 2 true
    ((twoNodes.node true).made ((twoNodes.node true).l2Egress 5 broadcast)) true 5 = 0 := by
  have hown : ∀ i, (twoNodes.node i).NamesOthers := by
    intro i
    cases i <;> refine ⟨fun _ _ h _ _ hv => ?_, fun _ _ h => ?_, fun _ _ _ _ h => ?_⟩ <;> cases h
    · cases hv
    · decide
    · cases hv
    · decide
  refine ⟨hown, ?_, (segment_frame_once twoNodes hown true 5 100 broadcast 2).2.1⟩
  simp only [List.forall_mem_cons, List.not_mem_nil, false_implies, implies_true, and_true]
  decide

end Juneau.L2Segment
