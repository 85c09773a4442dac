import Juneau.ApiObjects
import Juneau.Netip

namespace Juneau

structure CallerVpc where
  name : String
  serviceEnabled : Bool
  consume : Bool
  deriving DecidableEq, Repr

inductive QueryType
  | a
  | aaaa
  | other
  deriving DecidableEq, Repr

inductive RCode
  | noError
  | serverFailure
  | nxDomain
  | notImplemented
  deriving DecidableEq, Repr

structure DnsQuery where
  name : String
  type : QueryType
  inet : Bool
  caller : CallerVpc
  deriving DecidableEq, Repr

inductive AnswerData
  | a (addr : BitVec 32)
  | cname (target : String)
  deriving DecidableEq, Repr

structure DnsAnswer where
  name : String
  ttl : Nat
  data : AnswerData
  deriving DecidableEq, Repr

structure DnsResponse where
  rcode : RCode
  authoritative : Bool
  answers : List DnsAnswer
  deriving DecidableEq, Repr

section Names

def hasSuffix (text suffix : String) : Bool := suffix.toList <:+ text.toList

def trimSuffix (text suffix : String) : String :=
  if hasSuffix text suffix then String.ofList
    (text.toList.take (text.toList.length - suffix.toList.length)) else text

def splitLabels (text : String) : List String := (text.toList.splitOn '.').map String.ofList

end Names

def DnsResponse.nxDomain : DnsResponse := ⟨.nxDomain, true, []⟩

def DnsResponse.noData : DnsResponse := ⟨.noError, true, []⟩

/-- `netip.ParseAddr` and `Is4` after it. -/
def parseAddr4 (text : String) : Option (BitVec 32) :=
  match Netip.parseAddr text.toList with
  | .ok (.v4 a) => some a
  | _ => none

section Labels

theorem hasSuffix_append (a b : String) : hasSuffix (a ++ b) b = true := by
  unfold hasSuffix
  rw [String.toList_append]
  exact decide_eq_true (List.suffix_append _ _)

theorem trimSuffix_append (a b : String) : trimSuffix (a ++ b) b = a := by
  unfold trimSuffix
  rw [hasSuffix_append, if_pos rfl, String.toList_append, List.length_append,
    Nat.add_sub_cancel, List.take_left, String.ofList_toList]

end Labels

structure DnsCondition where
  type : String
  isTrue : Bool
  observedGeneration : Int
  deriving DecidableEq, Repr

/-- What `servableResource` reads of a zone or a record. -/
structure DnsStatus where
  generation : Int
  observedGeneration : Int
  conditions : List DnsCondition
  deleting : Bool
  deriving DecidableEq, Repr

structure DNSZone where
  name : String
  vpc : String
  domain : String
  domain_ne : domain ≠ ""
  status : DnsStatus
  deriving DecidableEq, Repr

structure DNSRecord where
  zone : String
  name : String
  isA : Bool
  ttl : Option Int
  addresses : List String
  status : DnsStatus
  deriving DecidableEq, Repr

def dnsConditionReady : String := "Ready"

def servableResource (s : DnsStatus) (readyType : String) : Bool :=
  if s.deleting then false
  else if s.observedGeneration ≠ s.generation then false
  else
    let ready := s.conditions.filter (·.type = readyType)
    ready.all (fun c => c.isTrue && c.observedGeneration = s.generation) && ready.length = 1

def projectedRecordData (r : DNSRecord) : Option (List (BitVec 32) × Nat) :=
  match r.isA, r.ttl with
  | true, some ttl =>
    if ttl < 1 ∨ 86400 < ttl ∨ 100 < r.addresses.length then none
    else
      match r.addresses.mapM parseAddr4 with
      | none => none
      | some addresses => if addresses.Nodup then some (addresses, ttl.toNat) else none
  | _, _ => none

def customDNSIndexKey (first second : String) : String :=
  Nat.repr first.utf8ByteSize ++ ":" ++ first ++ second

structure CustomZoneReads where
  zones : List DNSZone
  records : List DNSRecord
  zonesFail : String → Bool
  recordsFail : String → Bool

def CustomZoneReads.zonesAt (reads : CustomZoneReads) (key : String) : List DNSZone :=
  reads.zones.filter fun z => customDNSIndexKey z.vpc z.domain = key

def CustomZoneReads.recordsAt (reads : CustomZoneReads) (key : String) : List DNSRecord :=
  reads.records.filter fun r => customDNSIndexKey r.zone r.name = key

def joinedTails : List String → List String
  | [] => []
  | label :: rest => ".".intercalate (label :: rest) :: joinedTails rest

def customDomainCandidates (queryName : String) : List String :=
  let name := trimSuffix queryName "."
  if name = "" then [] else joinedTails (splitLabels name)

def relativeRecordName (queryName domain : String) : String :=
  let fqdn := domain ++ "."
  if queryName = fqdn then "@" else trimSuffix (trimSuffix queryName fqdn) "."

inductive CustomZoneError
  | notInZone
  | listZones
  | listRecords
  deriving DecidableEq, Repr

inductive ZoneLookup
  | missing
  | conflict
  | failed
  | found (z : DNSZone)
  deriving DecidableEq, Repr

def lookupZone (reads : CustomZoneReads) (callerVpc : String) : List String → ZoneLookup
  | [] => .missing
  | domain :: rest =>
    if reads.zonesFail (customDNSIndexKey callerVpc domain) then .failed
    else
      match reads.zonesAt (customDNSIndexKey callerVpc domain) with
      | [] => lookupZone reads callerVpc rest
      | [z] => .found z
      | _ => .conflict

def customServerFailure : DnsResponse := ⟨.serverFailure, true, []⟩

def recordAnswer (shuffle : List DnsAnswer → List DnsAnswer) (q : DnsQuery) (r : DNSRecord) :
    DnsResponse :=
  if !servableResource r.status dnsConditionReady then customServerFailure
  else
    match projectedRecordData r with
    | none => customServerFailure
    | some (addresses, ttl) =>
      if !q.inet then ⟨.notImplemented, true, []⟩
      else if q.type ≠ .a ∨ addresses = [] then .noData
      else ⟨.noError, true, shuffle (addresses.map fun a => ⟨q.name, ttl, .a a⟩)⟩

def zoneAnswer (shuffle : List DnsAnswer → List DnsAnswer) (reads : CustomZoneReads)
    (q : DnsQuery) (z : DNSZone) : DnsResponse × Option CustomZoneError :=
  if !servableResource z.status dnsConditionReady then (customServerFailure, none)
  else
    let key := customDNSIndexKey z.name (relativeRecordName q.name z.domain)
    if reads.recordsFail key then (⟨.serverFailure, false, []⟩, some .listRecords)
    else
      match reads.recordsAt key with
      | [] => (.nxDomain, none)
      | [r] => (recordAnswer shuffle q r, none)
      | _ => (customServerFailure, none)

def CustomZoneReads.resolve (shuffle : List DnsAnswer → List DnsAnswer)
    (reads : CustomZoneReads) (q : DnsQuery) : DnsResponse × Option CustomZoneError :=
  match lookupZone reads q.caller.name (customDomainCandidates q.name) with
  | .failed => (⟨.serverFailure, false, []⟩, some .listZones)
  | .conflict => (customServerFailure, none)
  | .missing => (⟨.noError, false, []⟩, some .notInZone)
  | .found z => zoneAnswer shuffle reads q z

variable {d : String}

section IndexKey

theorem append_left_of_size {a b c : String} (h : a ++ b = c ++ d)
    (hsize : a.utf8ByteSize = c.utf8ByteSize) : a = c := by
  have hbytes : a.toByteArray ++ b.toByteArray = c.toByteArray ++ d.toByteArray := by
    simpa using congrArg String.toByteArray h
  have hlists := congrArg (fun x => x.data.toList) hbytes
  simp only [ByteArray.data_append, Array.toList_append] at hlists
  have hleft := List.append_inj_left hlists hsize
  exact String.toByteArray_inj.mp (ByteArray.ext (Array.ext' hleft))

theorem customDNSIndexKey_inj {a b c : String} :
    customDNSIndexKey a b = customDNSIndexKey c d ↔ a = c ∧ b = d := by
  refine ⟨fun h => ?_, fun h => by rw [h.1, h.2]⟩
  have hchars := congrArg String.toList h
  simp only [customDNSIndexKey, String.toList_append, List.append_assoc] at hchars
  obtain ⟨hlen, hrest⟩ :=
    append_cons_inj_of_not_mem (colon_not_mem_repr _) (colon_not_mem_repr _) hchars
  have hsize : a.utf8ByteSize = c.utf8ByteSize := repr_toList_inj hlen
  have hjoin : a ++ b = c ++ d := by
    apply String.toList_inj.mp
    simpa [String.toList_append] using hrest
  have hac := append_left_of_size hjoin hsize
  subst hac
  exact ⟨rfl, String.append_right_inj _ |>.mp hjoin⟩

theorem zonesAt_eq (reads : CustomZoneReads) (vpc domain : String) : reads.zonesAt
    (customDNSIndexKey vpc domain) = reads.zones.filter fun z => z.vpc = vpc ∧ z.domain = domain :=
  List.filter_congr fun _ _ => decide_eq_decide.mpr customDNSIndexKey_inj

theorem recordsAt_eq (reads : CustomZoneReads) (zone name : String) : reads.recordsAt
    (customDNSIndexKey zone name) = reads.records.filter fun r => r.zone = zone ∧ r.name = name :=
  List.filter_congr fun _ _ => decide_eq_decide.mpr customDNSIndexKey_inj

end IndexKey

section Suffixes

def LabelSuffix (domain queryName : String) : Prop :=
  trimSuffix queryName "." = domain ∨ ∃ rest, trimSuffix queryName "." = rest ++ "." ++ domain

theorem intercalate_cons_cons (a b : String) (rest : List String) :
    ".".intercalate (a :: b :: rest) = a ++ "." ++ ".".intercalate (b :: rest) := by
  apply String.toList_inj.mp
  simp [String.toList_intercalate, List.intercalate]

theorem mem_joinedTails {labels : List String} (hdots : ∀ l ∈ labels, '.' ∉ l.toList)
    (hne : labels ≠ []) {domain : String} : domain ∈ joinedTails labels ↔
      ".".intercalate labels = domain ∨ ∃ rest, ".".intercalate labels = rest ++ "." ++ domain := by
  induction labels with
  | nil => exact absurd rfl hne
  | cons a labels ih =>
    cases labels with
    | nil =>
      have hone : ".".intercalate [a] = a := rfl
      simp only [joinedTails, List.mem_singleton, hone]
      refine ⟨fun h => .inl h.symm, ?_⟩
      rintro (h | ⟨rest, h⟩)
      · exact h.symm
      · exact absurd (by simp [h, String.toList_append]) (hdots a List.mem_cons_self)
    | cons b labels =>
      have htail := ih (fun l hl => hdots l (List.mem_cons_of_mem _ hl)) (List.cons_ne_nil _ _)
      rw [joinedTails, List.mem_cons, htail, intercalate_cons_cons]
      refine or_congr ⟨Eq.symm, Eq.symm⟩ ⟨?_, ?_⟩
      · rintro (h | ⟨rest, h⟩)
        · exact ⟨a, by rw [h]⟩
        · exact ⟨a ++ "." ++ rest, by rw [h]; simp only [String.append_assoc]⟩
      · rintro ⟨rest, h⟩
        -- the first label has no dot, so the cut is behind it
        have ha := hdots a List.mem_cons_self
        have hchars : a.toList ++ '.' :: (".".intercalate (b :: labels)).toList = rest.toList ++ '.' :: domain.toList := by
          simpa [String.toList_append] using congrArg String.toList h
        obtain ⟨t, hrest, ht⟩ | ⟨t, hfirst, ht⟩ := List.append_eq_append_iff.mp hchars
        · cases t with
          | nil => exact .inl (String.toList_inj.mp (List.cons.inj ht).2)
          | cons c t =>
            refine .inr ⟨String.ofList t, String.toList_inj.mp ?_⟩
            simpa [String.toList_append] using (List.cons.inj ht).2
        · cases t with
          | nil => exact .inl (String.toList_inj.mp (List.cons.inj ht).2.symm)
          | cons c t =>
            have hc : '.' = c := (List.cons.inj ht).1
            exact absurd (by rw [hfirst, hc]; simp) ha

theorem not_mem_of_mem_splitOnP {p : Char → Bool} {chars l : List Char} (h : l ∈ chars.splitOnP p) :
    ∀ c ∈ l, p c = false := by
  induction chars generalizing l with
  | nil =>
    rw [List.splitOnP_nil, List.mem_singleton] at h
    subst h
    exact fun _ hc => absurd hc List.not_mem_nil
  | cons x chars ih =>
    rw [List.splitOnP_cons_eq_if_modifyHead] at h
    split at h
    · obtain rfl | h := List.mem_cons.mp h
      · exact fun _ hc => absurd hc List.not_mem_nil
      · exact ih h
    next hx =>
      cases hsplit : chars.splitOnP p with
      | nil => exact absurd hsplit (List.splitOnP_ne_nil _ _)
      | cons first others =>
        rw [hsplit] at h ih
        obtain rfl | h := List.mem_cons.mp h
        · intro c hc
          obtain rfl | hc := List.mem_cons.mp hc
          · exact Bool.eq_false_iff.mpr hx
          · exact ih List.mem_cons_self c hc
        · exact ih (List.mem_cons_of_mem _ h)

theorem splitLabels_dotless (name : String) : ∀ l ∈ splitLabels name, '.' ∉ l.toList := by
  intro l hl hdot
  obtain ⟨chars, hchars, rfl⟩ := List.mem_map.mp hl
  rw [String.toList_ofList] at hdot
  rw [List.splitOn_eq_splitOnP] at hchars
  cases not_mem_of_mem_splitOnP hchars '.' hdot

theorem intercalate_splitLabels (name : String) : ".".intercalate (splitLabels name) = name := by
  apply String.toList_inj.mp
  have hdot : ".".toList = ['.'] := rfl
  rw [String.toList_intercalate, hdot, splitLabels, List.map_map]
  simp [Function.comp_def, List.intercalate_splitOn]

theorem mem_customDomainCandidates {domain queryName : String} (hdomain : domain ≠ "") :
    domain ∈ customDomainCandidates queryName ↔ LabelSuffix domain queryName := by
  unfold LabelSuffix
  simp only [customDomainCandidates]
  split
  next hempty =>
    rw [hempty]
    refine ⟨fun h => absurd h List.not_mem_nil, ?_⟩
    rintro (h | ⟨rest, h⟩)
    · exact absurd h.symm hdomain
    · exact absurd (congrArg String.toList h) (by simp [String.toList_append])
  · have hne : splitLabels (trimSuffix queryName ".") ≠ [] := fun hnil => List.splitOn_ne_nil _ _ (List.map_eq_nil_iff.mp hnil)
    rw [mem_joinedTails (splitLabels_dotless _) hne, intercalate_splitLabels]

theorem joinedTails_pairwise {labels : List String} (hdots : ∀ l ∈ labels, '.' ∉ l.toList) :
    (joinedTails labels).Pairwise fun a b => b.length < a.length := by
  induction labels with
  | nil => exact .nil
  | cons a labels ih =>
    have htail := fun l hl => hdots l (List.mem_cons_of_mem a hl)
    refine .cons (fun domain hmem => ?_) (ih htail)
    cases labels with
    | nil => cases hmem
    | cons b labels =>
      rw [mem_joinedTails htail (List.cons_ne_nil _ _)] at hmem
      rw [intercalate_cons_cons]
      have hdot : ".".length = 1 := rfl
      obtain h | ⟨rest, h⟩ := hmem
      · rw [h, String.length_append, String.length_append]
        omega
      · rw [h]
        simp only [String.length_append]
        omega

theorem customDomainCandidates_pairwise (queryName : String) :
    (customDomainCandidates queryName).Pairwise fun a b => b.length < a.length := by
  simp only [customDomainCandidates]
  split
  · exact .nil
  · exact joinedTails_pairwise (splitLabels_dotless _)

def DNSZone.fqdn (z : DNSZone) (r : DNSRecord) : String :=
  if r.name = "@" then z.domain ++ "." else r.name ++ "." ++ (z.domain ++ ".")

theorem relativeRecordName_fqdn (z : DNSZone) (r : DNSRecord) :
    relativeRecordName (z.fqdn r) z.domain = r.name := by
  unfold DNSZone.fqdn relativeRecordName
  split
  next hapex => rw [if_pos rfl, hapex]
  next hname =>
    have hlonger : r.name ++ "." ++ (z.domain ++ ".") ≠ z.domain ++ "." := by
      intro h
      have hlen := congrArg String.length h
      have hdot : ".".length = 1 := rfl
      simp only [String.length_append] at hlen
      omega
    rw [if_neg hlonger, trimSuffix_append, trimSuffix_append]

end Suffixes

section Lookup

variable (reads : CustomZoneReads) (vpc : String)

def CustomZoneReads.claiming (domain : String) : List DNSZone :=
  reads.zones.filter fun z => z.vpc = vpc ∧ z.domain = domain

def CustomZoneReads.ownRecords : List DNSRecord :=
  reads.records.filter fun r => ∃ z ∈ reads.zones, z.vpc = vpc ∧ z.name = r.zone

def CustomZoneReads.only (z : DNSZone) : CustomZoneReads :=
  { reads with zones := [z], records := reads.records.filter fun r => r.zone = z.name }

structure CustomZoneReads.SameFor (other : CustomZoneReads) : Prop where
  zones : (other.zones.filter fun z => z.vpc = vpc) = reads.zones.filter fun z => z.vpc = vpc
  records : other.ownRecords vpc = reads.ownRecords vpc
  zonesFail : other.zonesFail = reads.zonesFail
  recordsFail : other.recordsFail = reads.recordsFail

variable {reads vpc}

variable {other : CustomZoneReads} {domains : List String}

theorem lookupZone_congr (hfail : other.zonesFail = reads.zonesFail)
    (h : ∀ d ∈ domains, other.claiming vpc d = reads.claiming vpc d) :
    lookupZone other vpc domains = lookupZone reads vpc domains := by
  induction domains with
  | nil => rfl
  | cons d rest ih =>
    have hd := h d List.mem_cons_self
    have hrest := ih fun d' hd' => h d' (List.mem_cons_of_mem _ hd')
    unfold CustomZoneReads.claiming at hd
    simp only [lookupZone, zonesAt_eq, hd, hrest, hfail]

variable {z : DNSZone}

theorem lookupZone_found (h : lookupZone reads vpc domains = .found z) :
    z ∈ reads.zones ∧ z.vpc = vpc ∧ z.domain ∈ domains := by
  induction domains with
  | nil => cases h
  | cons d rest ih =>
    rw [lookupZone, zonesAt_eq] at h
    split at h
    · cases h
    · split at h
      · obtain ⟨hmem, hvpc, hd⟩ := ih h
        exact ⟨hmem, hvpc, List.mem_cons_of_mem _ hd⟩
      next z' hz =>
        cases h
        have hmem : z ∈ [z] := List.mem_cons_self
        rw [← hz, List.mem_filter, decide_eq_true_iff] at hmem
        exact ⟨hmem.1, hmem.2.1, hmem.2.2 ▸ List.mem_cons_self⟩
      · cases h

theorem lookupZone_stops (before after : List String) (hd : reads.claiming vpc d ≠ []) :
    lookupZone reads vpc (before ++ d :: after) = lookupZone reads vpc (before ++ [d]) := by
  induction before with
  | nil =>
    unfold CustomZoneReads.claiming at hd
    simp only [List.nil_append, lookupZone, zonesAt_eq]
    split
    · rfl
    · split
      · exact absurd ‹_› hd
      · rfl
      · rfl
  | cons d' before ih => simp only [List.cons_append, lookupZone, ih]

theorem lookupZone_skip {before : List String} (hbefore : ∀ d ∈ before, reads.claiming vpc d = [])
    (rest : List String) : lookupZone reads vpc (before ++ rest) = .failed ∨
    lookupZone reads vpc (before ++ rest) = lookupZone reads vpc rest := by
  induction before with
  | nil => exact .inr rfl
  | cons d before ih =>
    have hempty := hbefore d List.mem_cons_self
    unfold CustomZoneReads.claiming at hempty
    simp only [List.cons_append, lookupZone, zonesAt_eq, hempty]
    split
    · exact .inl rfl
    · exact ih fun x hx => hbefore x (List.mem_cons_of_mem _ hx)

theorem lookupZone_singleton (d : String) : lookupZone reads vpc [d] = .failed ∨
    lookupZone reads vpc [d] = match reads.claiming vpc d with
      | [] => .missing
      | [z] => .found z
      | _ => .conflict := by
  simp only [lookupZone, zonesAt_eq]
  split
  · exact .inl rfl
  · exact .inr rfl

theorem claiming_sameFor (h : reads.SameFor vpc other) (d : String) :
    other.claiming vpc d = reads.claiming vpc d := by
  have hsplit : ∀ r : CustomZoneReads,
      r.claiming vpc d = (r.zones.filter fun z => z.vpc = vpc).filter fun z => z.domain = d := fun r => by
    unfold CustomZoneReads.claiming
    rw [List.filter_filter]
    exact List.filter_congr fun _ _ => by simp [Bool.and_comm]
  rw [hsplit, hsplit, h.zones]

theorem zoneAnswer_congr (shuffle : List DnsAnswer → List DnsAnswer) (q : DnsQuery)
    (hfail : other.recordsFail = reads.recordsFail)
    (h : (other.records.filter fun r => r.zone = z.name) = reads.records.filter fun r =>
    r.zone = z.name) : zoneAnswer shuffle other q z = zoneAnswer shuffle reads q z := by
  have hsplit : ∀ (r : CustomZoneReads) name, (r.records.filter fun x => x.zone = z.name ∧ x.name = name) =
      (r.records.filter fun x => x.zone = z.name).filter fun x => x.name = name := fun r name => by
    rw [List.filter_filter]
    exact List.filter_congr fun _ _ => by simp [Bool.and_comm]
  simp only [zoneAnswer, recordsAt_eq, hsplit, h, hfail]

variable {q : DnsQuery}

theorem zoneAnswer_many (shuffle : List DnsAnswer → List DnsAnswer)
    (h : 1 < (reads.records.filter fun r => r.zone = z.name ∧ z.fqdn r = q.name).length) :
    (zoneAnswer shuffle reads q z).1.rcode = .serverFailure := by
  have hsub : (reads.records.filter fun r => r.zone = z.name ∧ z.fqdn r = q.name).Sublist
      (reads.records.filter fun r => r.zone = z.name ∧ r.name = relativeRecordName q.name z.domain) := by
    refine List.monotone_filter_right _ fun r hr => ?_
    obtain ⟨hzone, hname⟩ := decide_eq_true_iff.mp hr
    exact decide_eq_true ⟨hzone, by rw [← hname, relativeRecordName_fqdn]⟩
  have hmany := lt_of_lt_of_le h hsub.length_le
  simp only [zoneAnswer, recordsAt_eq]
  split
  · rfl
  · split
    · rfl
    · split
      next hnil => rw [hnil] at hmany; cases hmany
      next hone => rw [hone] at hmany; exact absurd hmany (lt_irrefl _)
      · rfl

theorem records_sameFor (h : reads.SameFor vpc other) (hz : z ∈ reads.zones) (hvpc : z.vpc = vpc) :
    (other.records.filter fun r => r.zone = z.name) = reads.records.filter fun r =>
    r.zone = z.name := by
  have hother : z ∈ other.zones := by
    have hmem : z ∈ reads.zones.filter fun z => z.vpc = vpc := List.mem_filter.mpr ⟨hz, decide_eq_true hvpc⟩
    rw [← h.zones] at hmem
    exact (List.mem_filter.mp hmem).1
  have hsplit : ∀ r : CustomZoneReads, z ∈ r.zones → (r.records.filter fun x => x.zone = z.name) =
      (r.ownRecords vpc).filter fun x => x.zone = z.name := fun r hr => by
    unfold CustomZoneReads.ownRecords
    rw [List.filter_filter]
    refine List.filter_congr fun x _ => ?_
    by_cases hx : x.zone = z.name
    · simp only [hx, decide_true, Bool.true_and]
      exact (decide_eq_true ⟨z, hr, hvpc, rfl⟩).symm
    · simp [hx]
  rw [hsplit other hother, hsplit reads hz, h.records]

theorem claiming_only (hvpc : z.vpc = vpc) :
    (reads.only z).claiming vpc d = if z.domain = d then [z] else [] := by
  simp [CustomZoneReads.claiming, CustomZoneReads.only, hvpc, List.filter_cons]

theorem resolve_sameFor (shuffle : List DnsAnswer → List DnsAnswer)
    (h : reads.SameFor q.caller.name other) :
    other.resolve shuffle q = reads.resolve shuffle q := by
  have hlookup : lookupZone other q.caller.name (customDomainCandidates q.name) =
      lookupZone reads q.caller.name (customDomainCandidates q.name) :=
    lookupZone_congr h.zonesFail fun d _ => claiming_sameFor h d
  unfold CustomZoneReads.resolve
  rw [hlookup]
  split
  · rfl
  · rfl
  · rfl
  next z hfound =>
    obtain ⟨hz, hvpc, -⟩ := lookupZone_found hfound
    exact zoneAnswer_congr shuffle q h.recordsFail (records_sameFor h hz hvpc)

/-- Among the zones of the Vpc that have the name, none has a longer domain. -/
structure CustomZoneReads.Nearest (reads : CustomZoneReads) (vpc name : String) (z : DNSZone) :
    Prop where
  mem : z ∈ reads.zones
  ofVpc : z.vpc = vpc
  suffix : LabelSuffix z.domain name
  longest : ∀ z' ∈ reads.zones, z'.vpc = vpc → LabelSuffix z'.domain name →
    z'.domain.length ≤ z.domain.length

/-- A candidate before the nearest zone's domain is longer, so no zone of the Vpc has it. -/
theorem candidates_before {name : String} (h : reads.Nearest vpc name z) :
    ∃ before after, customDomainCandidates name = before ++ z.domain :: after ∧
    ∀ d ∈ before, z.domain ≠ d ∧ reads.claiming vpc d = [] := by
  obtain ⟨before, after, hsplit⟩ :=
    List.append_of_mem ((mem_customDomainCandidates z.domain_ne).mpr h.suffix)
  have hpair := customDomainCandidates_pairwise name
  rw [hsplit, List.pairwise_append] at hpair
  refine ⟨before, after, hsplit, fun d hd => ?_⟩
  have hlt := hpair.2.2 _ hd _ List.mem_cons_self
  refine ⟨fun heq => absurd hlt (heq ▸ lt_irrefl _), List.filter_eq_nil_iff.mpr fun z' hz' hclaim =>
    ?_⟩
  obtain ⟨hvpc', rfl⟩ := decide_eq_true_iff.mp hclaim
  have hmem : z'.domain ∈ customDomainCandidates name := hsplit ▸ List.mem_append_left _ hd
  have hle := h.longest z' hz' hvpc' ((mem_customDomainCandidates z'.domain_ne).mp hmem)
  omega

theorem lookupZone_nearest {name : String} (h : reads.Nearest vpc name z) :
    lookupZone reads vpc (customDomainCandidates name) = .failed ∨
      lookupZone reads vpc (customDomainCandidates name) = match reads.claiming vpc z.domain with
        | [] => .missing
        | [z] => .found z
        | _ => .conflict := by
  obtain ⟨before, after, hsplit, hbefore⟩ := candidates_before h
  have hclaims : reads.claiming vpc z.domain ≠ [] :=
    List.ne_nil_of_mem (List.mem_filter.mpr ⟨h.mem, decide_eq_true ⟨h.ofVpc, rfl⟩⟩)
  rw [hsplit, lookupZone_stops before after hclaims]
  obtain hfailed | hskip := lookupZone_skip (fun d hd => (hbefore d hd).2) [z.domain]
  · exact .inl hfailed
  · rw [hskip]
    exact lookupZone_singleton z.domain

theorem lookupZone_only {name : String} (h : reads.Nearest vpc name z)
    (hone : reads.claiming vpc z.domain = [z]) : lookupZone (reads.only z) vpc
    (customDomainCandidates name) = lookupZone reads vpc (customDomainCandidates name) := by
  obtain ⟨before, after, hsplit, hbefore⟩ := candidates_before h
  have honly : (reads.only z).claiming vpc z.domain = [z] := by rw [claiming_only h.ofVpc,
    if_pos rfl]
  have hfail : (reads.only z).zonesFail = reads.zonesFail := rfl
  rw [hsplit, lookupZone_stops before after (honly ▸ List.cons_ne_nil _ _),
    lookupZone_stops before after (hone ▸ List.cons_ne_nil _ _)]
  refine lookupZone_congr hfail fun d hd => ?_
  obtain hd | hd := List.mem_append.mp hd
  · rw [claiming_only h.ofVpc, if_neg (hbefore d hd).1, (hbefore d hd).2]
  · rw [List.mem_singleton.mp hd, honly, hone]

/-- Every list of zones the lookup may ask for comes back. -/
def CustomZoneReads.ZonesListed (reads : CustomZoneReads) (vpc name : String) : Prop :=
  ∀ d ∈ customDomainCandidates name, reads.zonesFail (customDNSIndexKey vpc d) = false

theorem lookupZone_failed (h : lookupZone reads vpc domains = .failed) :
    ∃ d ∈ domains, reads.zonesFail (customDNSIndexKey vpc d) = true := by
  induction domains with
  | nil => cases h
  | cons d rest ih =>
    rw [lookupZone] at h
    split at h
    next hfail => exact ⟨d, List.mem_cons_self, hfail⟩
    · split at h
      · obtain ⟨d', hd', hfail⟩ := ih h
        exact ⟨d', List.mem_cons_of_mem _ hd', hfail⟩
      · cases h
      · cases h

theorem resolve_listZones {shuffle : List DnsAnswer → List DnsAnswer}
    (h : (reads.resolve shuffle q).2 = some .listZones) :
    ¬ reads.ZonesListed q.caller.name q.name := by
  intro hlisted
  unfold CustomZoneReads.resolve at h
  split at h
  next hfailed =>
    obtain ⟨d, hd, hfail⟩ := lookupZone_failed hfailed
    exact absurd hfail (by simp [hlisted d hd])
  · cases h
  · cases h
  next z _ =>
    unfold zoneAnswer at h
    split at h
    · cases h
    · dsimp only at h
      split at h
      · cases h
      · split at h <;> cases h

/-- The one zone with the longest suffix answers out of its own records. -/
theorem resolve_nearest (shuffle : List DnsAnswer → List DnsAnswer)
    (h : reads.Nearest q.caller.name q.name z) (hone : reads.claiming q.caller.name z.domain = [z])
    (hlisted : reads.ZonesListed q.caller.name q.name) :
    reads.resolve shuffle q = zoneAnswer shuffle reads q z := by
  have hfirst := lookupZone_nearest h
  rw [hone] at hfirst
  obtain hfailed | hfound := hfirst
  · obtain ⟨d, hd, hfail⟩ := lookupZone_failed hfailed
    exact absurd hfail (by simp [hlisted d hd])
  · rw [CustomZoneReads.resolve, hfound]

end Lookup

/-- The answer is a function of what the caller's Vpc has: caches that differ elsewhere agree on it.
Among the zones of the Vpc the one with the longest suffix of the name answers, as if it were alone:
where the lists come back, with its record for the name, or that there is none. Two zones of that
domain, or two of its records for the name, are a server failure. A Vpc without a zone for the name
leaves it to the next resolver. -/
theorem custom_zone_private (shuffle : List DnsAnswer → List DnsAnswer)
    (reads : CustomZoneReads) (q : DnsQuery) : (∀ other, reads.SameFor q.caller.name other →
    other.resolve shuffle q = reads.resolve shuffle q) ∧
    (∀ z, reads.Nearest q.caller.name q.name z →
      (1 < (reads.claiming q.caller.name z.domain).length →
      (reads.resolve shuffle q).1.rcode = .serverFailure) ∧
      (reads.claiming q.caller.name z.domain = [z] →
        reads.resolve shuffle q = (reads.only z).resolve shuffle q ∧
        (1 < (reads.records.filter fun r => r.zone = z.name ∧ z.fqdn r = q.name).length →
          (reads.resolve shuffle q).1.rcode = .serverFailure) ∧
        (reads.ZonesListed q.caller.name q.name → servableResource z.status dnsConditionReady →
          reads.recordsFail
          (customDNSIndexKey z.name (relativeRecordName q.name z.domain)) = false →
          ((∀ r ∈ reads.records, r.zone = z.name → r.name ≠ relativeRecordName q.name z.domain) →
            reads.resolve shuffle q = (.nxDomain, none)) ∧ ∀ r, (reads.records.filter fun r =>
          r.zone = z.name ∧ r.name = relativeRecordName q.name z.domain) = [r] →
            reads.resolve shuffle q = (recordAnswer shuffle q r, none)))) ∧
    ((∀ z ∈ reads.zones, z.vpc = q.caller.name → ¬ LabelSuffix z.domain q.name) →
      (reads.resolve shuffle q).2 = some .notInZone ∨
      (reads.resolve shuffle q).2 = some .listZones) ∧
    ((reads.resolve shuffle q).2 = some .listZones → ¬ reads.ZonesListed q.caller.name q.name) := by
  refine ⟨fun other h => resolve_sameFor shuffle h, fun z hnearest => ?_,
    fun hnone => ?_, resolve_listZones⟩
  · have hfirst := lookupZone_nearest hnearest
    refine ⟨fun hmany => ?_, fun hone => ⟨?_, fun hrecords => ?_, fun hlisted hservable hrecords => ?_⟩⟩
    · unfold CustomZoneReads.resolve
      obtain h | h := hfirst
      · rw [h]
      · rw [h]
        match reads.claiming q.caller.name z.domain, hmany with
        | _ :: _ :: _, _ => rfl
    · unfold CustomZoneReads.resolve
      rw [lookupZone_only hnearest hone]
      rw [hone] at hfirst
      obtain h | h := hfirst
      · rw [h]
      · rw [h]
        have hrec : reads.recordsFail = (reads.only z).recordsFail := rfl
        refine zoneAnswer_congr shuffle q hrec ?_
        simp [CustomZoneReads.only, List.filter_filter]
    · rw [hone] at hfirst
      unfold CustomZoneReads.resolve
      obtain h | h := hfirst
      · rw [h]
      · rw [h]
        exact zoneAnswer_many shuffle hrecords
    · rw [resolve_nearest shuffle hnearest hone hlisted]
      simp only [zoneAnswer, hservable, hrecords, recordsAt_eq, Bool.not_true, Bool.false_eq_true, if_false]
      refine ⟨fun hnil => ?_, fun r hr => by rw [hr]⟩
      rw [List.filter_eq_nil_iff.mpr fun r hr => by simpa using hnil r hr]
  · have hnobody : ∀ d ∈ customDomainCandidates q.name, reads.claiming q.caller.name d = [] := fun d hd => by
      refine List.filter_eq_nil_iff.mpr fun z hz hclaim => ?_
      obtain ⟨hvpc, rfl⟩ := decide_eq_true_iff.mp hclaim
      exact hnone z hz hvpc ((mem_customDomainCandidates z.domain_ne).mp hd)
    unfold CustomZoneReads.resolve
    have hskip := lookupZone_skip hnobody []
    rw [List.append_nil] at hskip
    obtain h | h := hskip
    · rw [h]
      exact .inr rfl
    · rw [h]
      exact .inl rfl

def readyStatus : DnsStatus := ⟨1, 1, [⟨"Ready", true, 1⟩], false⟩

def nestedZone (vpc domain : String)
    (h : domain ≠ "") : DNSZone := ⟨vpc ++ "-" ++ domain, vpc, domain, h, readyStatus⟩

/-- A Vpc with a zone within a zone, and another Vpc with zones and records of the same names. -/
def nestedReads : CustomZoneReads where
  zones := [nestedZone "a" "corp" (by decide), nestedZone "a" "db.corp" (by decide),
    nestedZone "b" "db.corp" (by decide)]
  records := [⟨"a-corp", "web.db", true, some 60, ["10.0.0.1"], readyStatus⟩,
    ⟨"a-db.corp", "web", true, some 60, ["10.0.0.2"], readyStatus⟩,
    ⟨"b-db.corp", "web", true, some 60, ["10.0.0.3"], readyStatus⟩]
  zonesFail := fun _ => false
  recordsFail := fun _ => false

def nestedQuery : DnsQuery := ⟨"web.db.corp.", .a, true, ⟨"a", true, true⟩⟩

/-- The inner zone of the caller's Vpc answers, and no other. -/
theorem nested_zone_answers : nestedReads.resolve List.reverse nestedQuery =
    (⟨.noError, true, [⟨"web.db.corp.", 60, .a 0x0a000002⟩]⟩, none) := by
  have hlongest : ∀ z ∈ nestedReads.zones, z.vpc = "a" → z.domain.length ≤ 7 := by decide
  have hnearest : nestedReads.Nearest "a" nestedQuery.name (nestedZone "a" "db.corp" (by decide)) :=
    ⟨by decide, rfl, .inr ⟨"web", by decide +kernel⟩, fun z hz hvpc _ => hlongest z hz hvpc⟩
  obtain ⟨-, -, hanswer⟩ := ((custom_zone_private List.reverse nestedReads nestedQuery).2.1 _ hnearest).2 (by decide +kernel)
  rw [(hanswer (fun _ _ => rfl) (by decide) rfl).2 ⟨"a-db.corp", "web",
    true, some 60, ["10.0.0.2"], readyStatus⟩ (by decide +kernel)]
  decide +kernel

end Juneau
