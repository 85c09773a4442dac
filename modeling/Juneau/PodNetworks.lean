import Juneau.ApiObjects
import Juneau.JsonText
import Juneau.PolicyAdmission
import Juneau.ServiceObjects
import Mathlib.Data.List.Dedup
import Mathlib.Data.List.Sort
import Mathlib.Data.String.Basic

namespace Juneau.PodNetworks

open JsonText

structure PodNetworkAttachment where
  interface : String := ""
  subnet : String := ""
  l2Network : String := ""
  elasticIP : String := ""
  address : String := ""
  securityGroups : List String := []
  deriving DecidableEq, Repr

section Parse

/-- The fields of an attachment that hold a text. -/
inductive TextField
  | interface
  | subnet
  | l2Network
  | elasticIP
  | address
  deriving DecidableEq, Repr

inductive Member
  | text (field : TextField) (value : Option String)
  | securityGroups (value : Option (List (Option String)))
  deriving DecidableEq, Repr

def textFields : List (String × TextField) :=
  [("interface", .interface), ("subnet", .subnet), ("l2Network", .l2Network),
    ("elasticIP",
    .elasticIP),
    ("address",
    .address)]

/-- The value of a key; a key that is none of an attachment's is refused. -/
def readValue (key : String) (s : List Char) : Option (Member × List Char) :=
  match textFields.find? (foldKey ·.1 = foldKey key) with
  | some (_, field) => (readOrNull readString s).map fun (value, rest) => (.text field value, rest)
  | none =>
    if foldKey key = foldKey "securityGroups" then
      (readOrNull (readList (readOrNull readString) '[' ']') s).map fun (value, rest) =>
        (.securityGroups value, rest)
    else none

def setText (a : PodNetworkAttachment) (value : String) : TextField → PodNetworkAttachment
  | .interface => { a with interface := value }
  | .subnet => { a with subnet := value }
  | .l2Network => { a with l2Network := value }
  | .elasticIP => { a with elasticIP := value }
  | .address => { a with address := value }

/-- A null leaves a text as it is. A list is written over the array of an earlier one for the same
key, of which a null element shows what was written there last. -/
def decodeMember : PodNetworkAttachment × List String → Member → PodNetworkAttachment × List String
  | (a, array), .text field value => (value.elim a (setText a · field), array)
  | (a, _), .securityGroups none => ({ a with securityGroups := [] }, [])
  | (a, _), .securityGroups (some []) => ({ a with securityGroups := [] }, [])
  | (a, array), .securityGroups (some values) =>
    let groups := values.zipIdx.map fun (value, i) => value.getD (array.getD i "")
    ({ a with securityGroups := groups }, groups ++ array.drop groups.length)

def decodeEntry (members : Option (List Member)) : PodNetworkAttachment :=
  ((members.getD []).foldl decodeMember ({}, [])).1

/-- `Decoder.Decode` into a list of attachments, with the text that is left. No attachment has a
field for a number or a boolean, so a text with one is refused whether it is well formed or not. -/
def decodeAttachments (s : List Char) : Option (Option (List PodNetworkAttachment) × List Char) :=
  (readOrNull (readList (readOrNull (readList (readPair readValue) '\x7b' '\x7d')) '[' ']')
    (skipWhite s)).map fun (entries, rest) =>
    (entries.map (·.map decodeEntry), rest)

/-- `Decoder.More`. -/
def more (rest : List Char) : Bool :=
  match skipWhite rest with
  | [] => false
  | c :: _ => c ≠ ']' && c ≠ '\x7d'

inductive AttachmentsError
  | decode
  | trailing
  deriving DecidableEq, Repr

def parsePodNetworkAttachments (annotationText : String) :
    Except AttachmentsError (List PodNetworkAttachment) :=
  if trimSpace annotationText = "" then .ok []
  else
    match decodeAttachments annotationText.toList with
    | none => .error .decode
    | some (attachments, rest) => if more rest then .error .trailing else .ok (attachments.getD [])

end Parse

section Grammar

inductive ValueText (key : String) : Member → List Char → Prop
  | text {named : String × TextField} {value : Option String} {v : List Char} :
      textFields.find? (foldKey ·.1 = foldKey key) = some named → OrNull StringText value v →
      ValueText key (.text named.2 value) v
  | securityGroups {value : Option (List (Option String))} {v : List Char} :
      foldKey key = foldKey "securityGroups" → OrNull
      (ListText (OrNull StringText) '[' ']') value v → ValueText key (.securityGroups value) v

def EntriesText : List (Option (List Member)) → List Char → Prop :=
  ListText (OrNull (ListText (PairText ValueText) '\x7b' '\x7d')) '[' ']'

theorem readValue_reads (key : String) : Reads (readValue key) (ValueText key) := by
  intro s m rest h
  unfold readValue at h
  split at h
  · rename_i name field hfield
    obtain ⟨_, hvalue, heq⟩ := Option.map_eq_some_iff.mp h
    cases heq
    obtain ⟨v, hv, htext⟩ := readOrNull_reads readString_reads hvalue
    exact ⟨v, hv, .text hfield htext⟩
  · split at h
    · rename_i hgroups
      obtain ⟨_, hvalue, heq⟩ := Option.map_eq_some_iff.mp h
      cases heq
      obtain ⟨v, hv, htext⟩ :=
        readOrNull_reads (readList_reads (readOrNull_reads readString_reads)) hvalue
      exact ⟨v, hv, .securityGroups hgroups htext⟩
    · cases h

/-- What the decoder takes from the text is null, or a list of attachments. -/
theorem decodeAttachments_eq {s rest : List Char} {attachments : Option (List PodNetworkAttachment)}
    (h : decodeAttachments s = some (attachments, rest)) :
    ∃ pre body entries, s = pre ++ body ++ rest ∧ White pre ∧
      OrNull EntriesText entries body ∧ attachments = entries.map (·.map decodeEntry) := by
  unfold decodeAttachments at h
  obtain ⟨⟨entries, tail⟩, hread, heq⟩ := Option.map_eq_some_iff.mp h
  cases heq
  obtain ⟨body, hbody, htext⟩ := readOrNull_reads
    (readList_reads (readOrNull_reads (readList_reads (readPair_reads readValue_reads)))) hread
  obtain ⟨pre, hpre, hwhite⟩ := skipWhite_eq s
  exact ⟨pre, body, entries, by rw [hpre, hbody, List.append_assoc], hwhite, htext, rfl⟩

/-- Behind the white space stands a closing bracket. -/
def Closes (post : List Char) : Prop := ∃ c ∈ (skipWhite post).head?, c = ']' ∨ c = '\x7d'

/-- The whole text is one list of attachments, with white space around it. -/
def OneList (annotationText : String) (attachments : List PodNetworkAttachment) : Prop :=
  ∃ pre body post entries, annotationText.toList = pre ++ body ++ post ∧ White pre ∧ White post ∧
    EntriesText entries body ∧ attachments = entries.map decodeEntry

theorem readValue_takes (key : String) : Takes (readValue key) (ValueText key) := by
  intro m v htext rest
  cases htext with
  | text hfield hvalue =>
    simp only [readValue, hfield,
      readOrNull_takes readString_takes stringText_heads (by decide) hvalue, Option.map_some]
  | securityGroups hgroups hvalue =>
    have hnone : textFields.find? (foldKey ·.1 = foldKey key) = none := by
      rw [hgroups]
      decide
    have hlist := readList_takes '[' ']' (readOrNull_takes readString_takes stringText_heads
      (by decide)) (orNull_heads stringText_heads) (by simp [isWhite, quote]) (by decide)
    simp only [readValue, hnone, if_pos hgroups,
      readOrNull_takes hlist listText_heads (by decide) hvalue, Option.map_some]

theorem valueText_heads (key : String) : Heads (ValueText key) ['n', quote, '['] := by
  intro m v htext
  cases htext with
  | text _ hvalue =>
    obtain ⟨c, hc, hv⟩ := orNull_heads stringText_heads hvalue
    exact ⟨c, by simp at hc ⊢; tauto, hv⟩
  | securityGroups _ hvalue =>
    obtain ⟨c, hc, hv⟩ := orNull_heads listText_heads hvalue
    exact ⟨c, by simp at hc ⊢; tauto, hv⟩

/-- Null or a list of attachments at the start of the text is what the decoder takes. -/
theorem decodeAttachments_takes {pre body : List Char}
    {entries : Option (List (Option (List Member)))}
    (hpre : White pre) (hbody : OrNull EntriesText entries body) (post : List Char) :
    decodeAttachments (pre ++ body ++ post) = some (entries.map (·.map decodeEntry), post) := by
  have hpairs := readPair_takes readValue_takes valueText_heads (by simp [isWhite, quote])
  have hobjects :=
    readList_takes '\x7b' '\x7d' hpairs pairText_heads (by simp [isWhite, quote]) (by decide)
  have hentries := readList_takes '[' ']' (readOrNull_takes hobjects listText_heads (by decide))
    (orNull_heads listText_heads) (by simp [isWhite]) (by decide)
  obtain ⟨c, hc, tail, htail⟩ := orNull_heads listText_heads hbody
  have hskip : skipWhite (pre ++ body ++ post) = body ++ post := by
    have hblack : isWhite c = false := by
      simp only [List.mem_cons, List.not_mem_nil, or_false] at hc
      rcases hc with rfl | rfl <;> decide
    rw [List.append_assoc, skipWhite_append hpre, htail, List.cons_append, skipWhite_cons _ hblack]
  rw [decodeAttachments, hskip, readOrNull_takes hentries listText_heads (by decide) hbody post]
  rfl

theorem more_eq_false_iff (post : List Char) : more post = false ↔ White post ∨ Closes post := by
  obtain ⟨ws, hws, hwhite⟩ := skipWhite_eq post
  unfold more Closes
  cases hskip : skipWhite post with
  | nil =>
    rw [hskip, List.append_nil] at hws
    simp [hws, hwhite]
  | cons c tail =>
    have hblack : ¬ White post := by
      intro hall
      have := skipWhite_append (s := []) hall
      rw [List.append_nil, hskip] at this
      cases this
    simp [hblack, Classical.or_iff_not_imp_left]

theorem OneList.not_blank {annotationText : String} {attachments : List PodNetworkAttachment}
    (h : OneList annotationText attachments) : trimSpace annotationText ≠ "" := by
  intro hblank
  obtain ⟨pre, body, post, entries, htext, -, -, hbody, -⟩ := h
  obtain ⟨c, hc, tail, rfl⟩ := listText_heads hbody
  obtain rfl : c = '[' := List.mem_singleton.mp hc
  exact absurd (isSpace_of_trimSpace hblank '[' (by simp [htext])) (by decide)

/-- What is read is one list of attachments exactly if the text is not blank, and does not start
with a null that nothing or a closing bracket follows, nor with a list that a closing bracket
follows. -/
theorem networks_one_list_iff (annotationText : String) :
    (∀ attachments, parsePodNetworkAttachments annotationText = .ok attachments →
    OneList annotationText attachments) ↔ trimSpace annotationText ≠ "" ∧
    ∀ pre body post, annotationText.toList = pre ++ body ++ post → White pre → (body = nullText →
      ¬ White post ∧ ¬ Closes post) ∧ ((∃ entries, EntriesText entries body) → ¬ Closes post) := by
  unfold parsePodNetworkAttachments
  constructor
  · intro h
    have hblank : trimSpace annotationText ≠ "" :=
      fun hblank => (h [] (if_pos hblank)).not_blank hblank
    refine ⟨hblank, fun pre body post htext hpre => ?_⟩
    -- what the decoder leaves is what stands behind the one list
    have hleft : ∀ entries, OrNull EntriesText entries body → more post = false →
      entries.isSome ∧ White post := by
      intro entries hbody hmore
      have hdecode := decodeAttachments_takes hpre hbody post
      rw [← htext] at hdecode
      obtain ⟨pre', body', post', entries', htext', hpre', hpost', hbody', -⟩ :=
        h _ (by rw [if_neg hblank, hdecode]; exact if_neg (by simp [hmore]))
      have hdecode' := decodeAttachments_takes hpre'
        (show OrNull EntriesText (some entries') body' from hbody') post'
      rw [← htext', hdecode] at hdecode'
      simp only [Option.map_some, Option.some.injEq, Prod.mk.injEq] at hdecode'
      obtain ⟨hentries, rfl⟩ := hdecode'
      exact ⟨by simpa using congrArg Option.isSome hentries, hpost'⟩
    refine ⟨fun hnull => not_or.mp fun hend => ?_, fun ⟨entries, hbody⟩ hcloses => ?_⟩
    · exact absurd (hleft none hnull ((more_eq_false_iff post).mpr hend)).1 (by decide)
    · obtain ⟨-, hwhite⟩ := hleft (some entries) hbody ((more_eq_false_iff post).mpr (.inr hcloses))
      obtain ⟨c, hc, -⟩ := hcloses
      rw [← List.append_nil post, skipWhite_append hwhite] at hc
      cases hc
  · rintro ⟨hblank, hbehind⟩ attachments h
    rw [if_neg hblank] at h
    split at h
    · cases h
    · rename_i decoded rest hdecode
      obtain ⟨pre, body, entries, htext, hwhite, hbody, rfl⟩ := decodeAttachments_eq hdecode
      split at h
      · cases h
      · rename_i hmore
        cases h
        have hend := (more_eq_false_iff rest).mp (Bool.eq_false_of_not_eq_true hmore)
        obtain ⟨hnull, hlist⟩ := hbehind pre body rest htext hwhite
        cases entries with
        | none => exact absurd hend (not_or.mpr (hnull hbody))
        | some entries =>
          exact ⟨pre, body, rest, entries, htext, hwhite,
            hend.resolve_right (hlist ⟨entries, hbody⟩), hbody, rfl⟩

/-- An annotation with an attachment whose security groups are a list. -/
def oneAttachment : String := String.ofList
  (" [\x7b'interface': 'net1', 'securityGroups' : ['web', null]\x7d]\n".toList.map fun c =>
  if c = '\x27' then quote else c)

theorem oneAttachment_alone :
    OneList oneAttachment [{ interface := "net1", securityGroups := ["web", ""] }] := by
  have hdecode : decodeAttachments oneAttachment.toList = some (some
      [{ interface := "net1", securityGroups := ["web", ""] }], ['\n']) := by decide +kernel
  refine (networks_one_list_iff oneAttachment).mpr
    ⟨by decide +kernel, fun pre body post htext hpre => ?_⟩ _ (by decide +kernel)
  rw [htext] at hdecode
  refine ⟨fun hnull => ?_, fun ⟨entries, hbody⟩ hcloses => ?_⟩
  · have htaken := decodeAttachments_takes hpre (show OrNull EntriesText none body from hnull) post
    rw [hdecode] at htaken
    cases htaken
  · have htaken :=
      decodeAttachments_takes hpre (show OrNull EntriesText (some entries) body from hbody) post
    rw [hdecode] at htaken
    obtain rfl : ['\n'] = post := congrArg Prod.snd (Option.some.inj htaken)
    obtain ⟨c, hc, -⟩ := hcloses
    cases hc

/-- The decoder does not count a closing bracket as more. -/
theorem bracket_after_list : parsePodNetworkAttachments "[]]" = .ok [] ∧
    parsePodNetworkAttachments " [] \x7d x" = .ok [] ∧ parsePodNetworkAttachments "null" = .ok [] ∧
    parsePodNetworkAttachments "[] []" = .error .trailing := by
  decide +kernel

end Grammar

section Resolve

abbrev Annotations := String → Option String

def podAnnotationSubnet : String := "juneau.loutres.me/subnet"

def podAnnotationAddress : String := "juneau.loutres.me/address"

def podAnnotationSecurityGroups : String := "juneau.loutres.me/security-groups"

def podAnnotationElasticIP : String := "juneau.loutres.me/elastic-ip"

def podAnnotationNetworks : String := "juneau.loutres.me/networks"

def podPrimaryInterfaceName : String := "eth0"

def podDefaultSubnetName : String := "default"

structure PodNetworkAttachmentSource where
  annotationName : String
  index : Nat := 0
  deriving DecidableEq, Repr

structure ResolvedPodNetworkAttachment where
  attachment : PodNetworkAttachment
  source : PodNetworkAttachmentSource
  deriving DecidableEq, Repr

def podAnnotationPath (key : String) : FieldPath :=
  [.child "metadata", .child "annotations", .key key]

def PodNetworkAttachmentSource.path (s : PodNetworkAttachmentSource) : FieldPath :=
  if s.annotationName = podAnnotationNetworks then Juneau.index
    (podAnnotationPath s.annotationName) s.index else podAnnotationPath s.annotationName

/-- The checks of the API machinery: the messages for a name that is no subdomain, and for one that
is no label. -/
structure NameChecks where
  isDNS1123Subdomain : String → List String
  isDNS1123Label : String → List String

variable (names : NameChecks)

variable (path : FieldPath)

def invalid (msgs : List String) : List FieldError := msgs.map fun msg => ⟨.invalid, path, msg⟩

def validatePodInterfaceName (name : String) : List FieldError :=
  if name = "" then [⟨.required, path, "every entry needs an interface name"⟩]
  else if name.utf8ByteSize > 8 then [⟨.invalid, path,
    "an interface name may hold at most 8 characters"⟩]
  else invalid path (names.isDNS1123Label name)

/-- The networks an entry names, each with its field. -/
def namedNetworks (a : PodNetworkAttachment) : List (String × String) :=
  [("subnet", a.subnet), ("l2Network", a.l2Network), ("elasticIP", a.elasticIP)].filter (·.2 ≠ "")

def validatePodAttachmentNetwork (a : PodNetworkAttachment) : List FieldError :=
  match namedNetworks a with
  | [] => [⟨.required, path, "every entry needs a subnet, an l2Network or an elasticIP"⟩]
  | [network] => invalid (child path network.1) (names.isDNS1123Subdomain network.2)
  | _ :: second :: _ => [⟨.invalid, child path second.1,
    "an entry names exactly one of subnet, l2Network and elasticIP"⟩]

def validatePodElasticIPAttachmentFields (a : PodNetworkAttachment) : List FieldError :=
  (if a.address ≠ "" then
    [⟨.forbidden, child path "address",
      "a NIC on an elasticIP carries the address of that ElasticIP and cannot pin another one"⟩]
      else []) ++
  if a.securityGroups ≠ [] then
    [⟨.forbidden, child path "securityGroups",
      "a NIC on an elasticIP belongs to no Vpc and takes no SecurityGroups"⟩] else []

def parsesIP (text : String) : Bool :=
  match Netip.parseAddr text.toList with
  | .ok (.v6 _ (_ :: _)) => false
  | .ok _ => true
  | .error _ => false

def validateSecurityGroups (groups : List String) : List FieldError :=
  (if groups.length > 2 then [⟨.invalid, path, "at most 2 security groups allowed (got " ++
    toString groups.length ++ ")"⟩] else []) ++
  groups.zipIdx.flatMap fun (name, i) =>
    if name = "" then [⟨.required, index path i, "a security group name cannot be empty"⟩]
    else if name ∈ groups.take i then [⟨.duplicate, index path i, ""⟩]
    else []

def validatePodAttachmentTarget (a : PodNetworkAttachment) : List FieldError :=
  validatePodAttachmentNetwork names path a ++
  if a.elasticIP ≠ "" then validatePodElasticIPAttachmentFields path a
  else
    (if a.address ≠ "" ∧ ¬ parsesIP a.address then [⟨.invalid, child path "address",
      "address must be an IP address"⟩] else []) ++
    validateSecurityGroups (child path "securityGroups") a.securityGroups

def validatePodNetworkAttachments (attachments : List PodNetworkAttachment) : List FieldError :=
  attachments.zipIdx.flatMap fun (a, i) =>
    let entry := index path i
    validatePodInterfaceName names (child entry "interface") a.interface ++
    (if a.interface ∈ (attachments.take i).map
      (·.interface) then [⟨.duplicate, child entry "interface", ""⟩] else []) ++
    validatePodAttachmentTarget names entry a

def describedElsewhere (annotationName : String) : String :=
  "the " ++ annotationName ++ " annotation already describes interface " ++
    Api.quoted podPrimaryInterfaceName ++ "; remove this annotation"

variable (annotations : Annotations)

def forbidPodAnnotations (detail : String) (keys : List String) : List FieldError :=
  (keys.filter fun key => (annotations key).isSome).map fun key =>
    ⟨.forbidden, podAnnotationPath key, detail⟩

def validatePodElasticIPAnnotation : List FieldError :=
  match annotations podAnnotationElasticIP with
  | none => []
  | some name =>
    (if name = "" then [⟨.required, podAnnotationPath podAnnotationElasticIP,
      "name an ElasticIP in the namespace of the Pod"⟩]
      else invalid (podAnnotationPath podAnnotationElasticIP) (names.isDNS1123Subdomain name)) ++
    forbidPodAnnotations annotations (describedElsewhere podAnnotationElasticIP)
      [podAnnotationSubnet, podAnnotationAddress, podAnnotationSecurityGroups]

def parsePodSecurityGroups (annotationText : String) : List String :=
  ((((annotationText.toList.splitOn ',').map fun part => trimSpace (String.ofList part)).filter
    (· ≠ "")).dedup).insertionSort (· ≤ ·)

def resolvedPodPrimaryAnnotations : ResolvedPodNetworkAttachment :=
  match annotations podAnnotationElasticIP with
  | some name =>
    ⟨{ interface := podPrimaryInterfaceName, elasticIP := name }, ⟨podAnnotationElasticIP, 0⟩⟩
  | none =>
    let subnet := (annotations podAnnotationSubnet).getD ""
    ⟨{ interface := podPrimaryInterfaceName, subnet := if subnet = "" then podDefaultSubnetName else subnet,
       address := (annotations podAnnotationAddress).getD "",
       securityGroups := parsePodSecurityGroups ((annotations podAnnotationSecurityGroups).getD "") }, ⟨podAnnotationSubnet, 0⟩⟩

def resolvedPodNetworksEntry (entry : PodNetworkAttachment × Nat) : ResolvedPodNetworkAttachment :=
  ⟨entry.1, ⟨podAnnotationNetworks, entry.2⟩⟩

def validatePodElasticIPsNotShared (resolved : List ResolvedPodNetworkAttachment) :
    List FieldError :=
  resolved.zipIdx.flatMap fun (nic, i) =>
    if nic.attachment.elasticIP ≠ "" ∧
      nic.attachment.elasticIP ∈ (resolved.take i).map (·.attachment.elasticIP) then
      [⟨.duplicate, if nic.source.annotationName =
        podAnnotationNetworks then child nic.source.path "elasticIP" else nic.source.path, ""⟩]
    else []

/-- The cause of an error of the decoder is left out. -/
def AttachmentsError.text : AttachmentsError → String
  | .decode => "read the " ++ podAnnotationNetworks ++ " annotation: "
  | .trailing => "read the " ++ podAnnotationNetworks ++
    " annotation: unexpected content after the list"

/-- The entry that describes the primary NIC, with its place in the list. -/
def primaryEntry (entries : List PodNetworkAttachment) : Option (PodNetworkAttachment × Nat) :=
  entries.zipIdx.find? (·.1.interface = podPrimaryInterfaceName)

def attachmentErrors (entries : List PodNetworkAttachment) : List FieldError :=
  validatePodNetworkAttachments names (podAnnotationPath podAnnotationNetworks) entries ++
    if (primaryEntry entries).isSome then
      forbidPodAnnotations annotations (describedElsewhere podAnnotationNetworks)
        [podAnnotationSubnet, podAnnotationAddress, podAnnotationSecurityGroups,
        podAnnotationElasticIP]
    else validatePodElasticIPAnnotation names annotations

def resolvedNICs (entries : List PodNetworkAttachment) : List ResolvedPodNetworkAttachment :=
  match primaryEntry entries with
  | some e =>
    resolvedPodNetworksEntry e :: (entries.zipIdx.filter (·.2 ≠ e.2)).map resolvedPodNetworksEntry
  | none => resolvedPodPrimaryAnnotations annotations :: entries.zipIdx.map resolvedPodNetworksEntry

def resolvePodNetworkAttachments : Except (List FieldError) (List ResolvedPodNetworkAttachment) :=
  match parsePodNetworkAttachments ((annotations podAnnotationNetworks).getD "") with
  | .error e => .error [⟨.invalid, podAnnotationPath podAnnotationNetworks, e.text⟩]
  | .ok entries =>
    if attachmentErrors names annotations entries ≠ [] then .error
      (attachmentErrors names annotations entries)
    else
      let resolved := resolvedNICs annotations entries
      let errs := validatePodElasticIPsNotShared resolved
      if errs ≠ [] then .error errs else .ok resolved

theorem pairwise_of_take {α : Type} {R : α → α → Prop} {l : List α}
    (h : ∀ x i, (x, i) ∈ l.zipIdx → ∀ y ∈ l.take i, R y x) : l.Pairwise R := by
  rw [List.pairwise_iff_getElem]
  intro i j hi hj hij
  refine h l[j] j (List.mem_zipIdx_iff_getElem?.mpr (List.getElem?_eq_getElem hj)) l[i] ?_
  rw [List.mem_take_iff_getElem]
  exact ⟨i, by omega, rfl⟩

theorem oneNetwork_of_valid {names : NameChecks} {path : FieldPath} {a : PodNetworkAttachment}
    (h : validatePodAttachmentTarget names path a = []) : (namedNetworks a).length = 1 := by
  have hnetwork := (List.append_eq_nil_iff.mp h).1
  unfold validatePodAttachmentNetwork at hnetwork
  split at hnetwork
  · cases hnetwork
  · rename_i network hone
    rw [hone]
    rfl
  · cases hnetwork

variable {entries : List PodNetworkAttachment}

theorem entries_of_valid {names : NameChecks} {path : FieldPath}
    (h : validatePodNetworkAttachments names path entries = []) :
    (entries.map (·.interface)).Nodup ∧ ∀ a ∈ entries, (namedNetworks a).length = 1 := by
  have hentry := List.flatMap_eq_nil_iff.mp h
  simp only [List.append_eq_nil_iff, ite_eq_right_iff, List.cons_ne_nil, imp_false] at hentry
  constructor
  · refine List.pairwise_map.mpr (pairwise_of_take fun a i hi b hb hsame => ?_)
    exact (hentry (a, i) hi).1.2 (hsame ▸ List.mem_map_of_mem hb)
  · intro a ha
    obtain ⟨i, hi⟩ := List.mem_iff_getElem?.mp ha
    exact oneNetwork_of_valid (hentry (a, i) (List.mem_zipIdx_iff_getElem?.mpr hi)).2

theorem elasticIPs_of_valid {resolved : List ResolvedPodNetworkAttachment}
    (h : validatePodElasticIPsNotShared resolved = []) :
    ((resolved.map (·.attachment.elasticIP)).filter (· ≠ "")).Nodup := by
  have hnic := List.flatMap_eq_nil_iff.mp h
  simp only [ite_eq_right_iff, List.cons_ne_nil, imp_false, not_and] at hnic
  rw [List.Nodup, List.pairwise_filter, List.pairwise_map]
  refine pairwise_of_take fun nic i hi other hother _ hname hsame => ?_
  exact hnic (nic, i) hi (by simpa using hname) (hsame ▸ List.mem_map_of_mem hother)

/-- Taking one entry to the front keeps every entry once. -/
theorem zipIdx_perm {e : PodNetworkAttachment × Nat} (h : e ∈ entries.zipIdx) :
    (e :: entries.zipIdx.filter (·.2 ≠ e.2)).Perm entries.zipIdx := by
  have hnodup : entries.zipIdx.Nodup :=
    List.Nodup.of_map Prod.snd (by rw [List.zipIdx_map_snd]; exact List.nodup_range')
  have hothers : entries.zipIdx.filter (·.2 ≠ e.2) = entries.zipIdx.erase e := by
    rw [hnodup.erase_eq_filter]
    refine List.filter_congr fun entry hentry => ?_
    have hsame : entry.2 = e.2 ↔ entry = e := by
      refine ⟨fun hidx => ?_, fun heq => heq ▸ rfl⟩
      have hfirst := List.mem_zipIdx_iff_getElem?.mp h
      rw [← hidx, List.mem_zipIdx_iff_getElem?.mp hentry] at hfirst
      exact Prod.ext (Option.some.inj hfirst) hidx
    rw [Bool.eq_iff_iff, bne_iff_ne, decide_eq_true_iff, ne_eq, ne_eq, hsame]
  rw [hothers]
  exact (List.perm_cons_erase h).symm

variable {names : NameChecks} {annotations : Annotations}

theorem oneNetwork_primary (h : validatePodElasticIPAnnotation names annotations = []) :
    (namedNetworks (resolvedPodPrimaryAnnotations annotations).attachment).length = 1 := by
  unfold resolvedPodPrimaryAnnotations
  split
  · rename_i name hname
    rw [ validatePodElasticIPAnnotation, hname] at h
    have hne : name ≠ "" := by
      rintro rfl
      cases h
    simp [namedNetworks, hne]
  · dsimp only
    split
    · rfl
    · rename_i hne
      simp [namedNetworks, hne]

theorem primary_source :
    (resolvedPodPrimaryAnnotations annotations).source.annotationName ≠ podAnnotationNetworks ∧
    (resolvedPodPrimaryAnnotations annotations).attachment.interface = podPrimaryInterfaceName := by
  have helastic : podAnnotationElasticIP ≠ podAnnotationNetworks := by decide
  have hsubnet : podAnnotationSubnet ≠ podAnnotationNetworks := by decide
  unfold resolvedPodPrimaryAnnotations
  split
  · exact ⟨helastic, rfl⟩
  · exact ⟨hsubnet, rfl⟩

/-- The NICs of a Pod whose annotations are accepted. -/
structure Described (annotations : Annotations) (entries : List PodNetworkAttachment)
    (resolved : List ResolvedPodNetworkAttachment) : Prop where
  primary : ∃ first rest, resolved = first :: rest ∧ first.attachment.interface =
    podPrimaryInterfaceName ∧ (if first.source.annotationName = podAnnotationNetworks then
      ∀ key ∈ [podAnnotationSubnet, podAnnotationAddress, podAnnotationSecurityGroups,
        podAnnotationElasticIP], annotations key = none
    else first = resolvedPodPrimaryAnnotations annotations ∧
      ∀ e ∈ entries, e.interface ≠ podPrimaryInterfaceName)
  names : (resolved.map (·.attachment.interface)).Nodup
  oneNetwork : ∀ nic ∈ resolved, (namedNetworks nic.attachment).length = 1
  elasticIPs : ((resolved.map (·.attachment.elasticIP)).filter (· ≠ "")).Nodup
  entries : (resolved.filter (·.source.annotationName = podAnnotationNetworks)).Perm
    (entries.zipIdx.map resolvedPodNetworksEntry)

theorem interfaces_zipIdx (entries : List PodNetworkAttachment) :
    (entries.zipIdx.map resolvedPodNetworksEntry).map (·.attachment.interface) =
    entries.map (·.interface) := by
  rw [List.map_map]
  conv_rhs => rw [← List.zipIdx_map_fst 0 entries, List.map_map]
  rfl

theorem filter_networks (es : List (PodNetworkAttachment × Nat)) :
    (es.map resolvedPodNetworksEntry).filter (·.source.annotationName = podAnnotationNetworks) =
    es.map resolvedPodNetworksEntry := by
  refine List.filter_eq_self.mpr fun nic hnic => ?_
  obtain ⟨e, -, rfl⟩ := List.mem_map.mp hnic
  exact decide_eq_true rfl

theorem described_by_entry {e : PodNetworkAttachment × Nat}
    (he : primaryEntry entries = some e) (h : attachmentErrors names annotations entries = [])
    (hshared : validatePodElasticIPsNotShared (resolvedNICs annotations entries) = []) :
    Described annotations entries (resolvedNICs annotations entries) := by
  obtain ⟨hentries, hforbidden⟩ := List.append_eq_nil_iff.mp h
  obtain ⟨hnames, hnetwork⟩ := entries_of_valid hentries
  have helastic := elasticIPs_of_valid hshared
  have hmem : e ∈ entries.zipIdx := List.mem_of_find?_eq_some he
  have hnics : resolvedNICs annotations entries =
    (e :: entries.zipIdx.filter (·.2 ≠ e.2)).map resolvedPodNetworksEntry := by
    rw [resolvedNICs, he, List.map_cons]
  -- the entry of the primary interface is only moved to the front
  have hperm := (zipIdx_perm hmem).map resolvedPodNetworksEntry
  rw [hnics] at helastic ⊢
  have hinterface : e.1.interface = podPrimaryInterfaceName := by simpa using List.find?_some he
  have hsource : (resolvedPodNetworksEntry e).source.annotationName = podAnnotationNetworks := rfl
  refine ⟨⟨_, _, rfl, hinterface, ?_⟩, ?_, fun nic hnic => ?_, helastic, ?_⟩
  · rw [if_pos hsource]
    rw [he, Option.isSome_some, if_pos rfl, forbidPodAnnotations, List.map_eq_nil_iff,
      List.filter_eq_nil_iff] at hforbidden
    simpa using hforbidden
  · rw [(hperm.map _).nodup_iff, interfaces_zipIdx]
    exact hnames
  · obtain ⟨entry, hentry, rfl⟩ := List.mem_map.mp (hperm.mem_iff.mp hnic)
    exact hnetwork entry.1 (List.fst_mem_of_mem_zipIdx hentry)
  · rw [filter_networks]
    exact hperm

theorem described_by_annotations
    (hnone : primaryEntry entries = none) (h : attachmentErrors names annotations entries = [])
    (hshared : validatePodElasticIPsNotShared (resolvedNICs annotations entries) = []) :
    Described annotations entries (resolvedNICs annotations entries) := by
  obtain ⟨hentries, hannotation⟩ := List.append_eq_nil_iff.mp h
  obtain ⟨hnames, hnetwork⟩ := entries_of_valid hentries
  have helastic := elasticIPs_of_valid hshared
  obtain ⟨hsource, hinterface⟩ := @primary_source annotations
  have hother : ∀ e ∈ entries, e.interface ≠ podPrimaryInterfaceName := by
    intro e he
    obtain ⟨i, hi⟩ := List.mem_iff_getElem?.mp he
    simpa using List.find?_eq_none.mp hnone (e, i) (List.mem_zipIdx_iff_getElem?.mpr hi)
  have hnics : resolvedNICs annotations entries =
    resolvedPodPrimaryAnnotations annotations :: entries.zipIdx.map resolvedPodNetworksEntry := by
    rw [resolvedNICs, hnone]
  rw [hnone, Option.isSome_none, if_neg (by decide)] at hannotation
  rw [hnics] at helastic ⊢
  refine ⟨⟨_, _, rfl, hinterface, ?_⟩, ?_,
    List.forall_mem_cons.mpr ⟨oneNetwork_primary hannotation, fun nic hnic => ?_⟩, helastic, ?_⟩
  · rw [if_neg hsource]
    exact ⟨rfl, hother⟩
  · rw [List.map_cons, List.nodup_cons, interfaces_zipIdx, hinterface]
    refine ⟨fun hmem => ?_, hnames⟩
    obtain ⟨e, he, hname⟩ := List.mem_map.mp hmem
    exact hother e he hname
  · obtain ⟨entry, hentry, rfl⟩ := List.mem_map.mp hnic
    exact hnetwork entry.1 (List.fst_mem_of_mem_zipIdx hentry)
  · rw [List.filter_cons_of_neg (by simpa using hsource), filter_networks]

/-- Annotations that are accepted describe the primary NIC first and in one way only, every entry of
the list once, names that differ, one network for each NIC, and no ElasticIP twice. -/
theorem resolved_attachments {resolved : List ResolvedPodNetworkAttachment}
    (h : resolvePodNetworkAttachments names annotations = .ok resolved) : ∃ entries,
    parsePodNetworkAttachments ((annotations podAnnotationNetworks).getD "") = .ok entries ∧
      Described annotations entries resolved := by
  unfold resolvePodNetworkAttachments at h
  split at h
  · cases h
  · rename_i entries hparse
    refine ⟨entries, hparse, ?_⟩
    split at h
    · cases h
    · rename_i hvalid
      dsimp only at h
      split at h
      · cases h
      · rename_i hshared
        cases h
        cases hprimary : primaryEntry entries with
        | none => exact described_by_annotations hprimary (not_not.mp hvalid) (not_not.mp hshared)
        | some e => exact described_by_entry hprimary (not_not.mp hvalid) (not_not.mp hshared)

def dmzAnnotations : Annotations := fun key =>
  if key = podAnnotationNetworks then some "[\x7b\"interface\":\"net1\",\"elasticIP\":\"web\"\x7d]"
    else none

/-- Every name but the empty one passes. -/
def dmzNames : NameChecks :=
  let nonempty := fun name => if name = "" then ["must not be empty"] else []
  ⟨nonempty, nonempty⟩

theorem dmz_described : ∃ resolved entries, resolvePodNetworkAttachments dmzNames dmzAnnotations =
    .ok resolved ∧ resolved.map (·.attachment.interface) = ["eth0", "net1"] ∧
    Described dmzAnnotations entries resolved := by
  have hresolve : resolvePodNetworkAttachments dmzNames dmzAnnotations =
      .ok [⟨{ interface := "eth0", subnet := "default" }, ⟨podAnnotationSubnet, 0⟩⟩,
        ⟨{ interface := "net1", elasticIP := "web" },
        ⟨podAnnotationNetworks, 0⟩⟩] := by decide +kernel
  obtain ⟨entries, -, hdescribed⟩ := resolved_attachments hresolve
  exact ⟨_, entries, hresolve, rfl, hdescribed⟩

end Resolve

end Juneau.PodNetworks
