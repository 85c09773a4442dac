import Juneau.CustomZone
import Juneau.ExceptWalk
import Mathlib.Data.List.TakeWhile

namespace Juneau.UpstreamForwarder

section Messages

structure Header where
  id : BitVec 16
  response : Bool
  truncated : Bool
  rcode : BitVec 16
  deriving DecidableEq, Repr

structure Question where
  name : String
  type : BitVec 16
  qclass : BitVec 16
  deriving DecidableEq, Repr

/-- A resource whose header was read, with what each way to go on from there gives. -/
structure Resource where
  name : String
  type : BitVec 16
  rclass : BitVec 16
  ttl : Nat
  aResource : Option (BitVec 32)
  cnameResource : Option String
  skips : Bool
  deriving DecidableEq, Repr

/-- What the header after the last resource was: none, since the section is done, or one that cannot
be read. -/
inductive SectionEnd
  | done
  | malformed
  deriving DecidableEq, Repr

/-- What `dnsmessage.Parser` gives for a datagram. `trailer` is whether the sections behind the
answers can be read. -/
structure Message where
  header : Option Header
  questions : Option (List Question)
  answers : List Resource
  stop : SectionEnd
  trailer : Bool
  deriving DecidableEq, Repr

/-- The library: a query packed for the wire, where its name allows, and a datagram parsed. -/
structure Wire where
  pack : BitVec 16 → Question → Option (List (BitVec 8))
  parse : List (BitVec 8) → Message

def classINET : BitVec 16 := 1
def typeA : BitVec 16 := 1
def typeCNAME : BitVec 16 := 5

end Messages

structure Response where
  rcode : BitVec 16
  authoritative : Bool
  answers : List DnsAnswer
  deriving DecidableEq, Repr

inductive Failure
  | encode
  | upstream (cause : String)
  | parseHeader
  | noQR
  | skipQuestions
  | aBody
  | cnameBody
  | skipAnswer
  deriving DecidableEq, Repr

/-- The loop over the answers. It ends alike where the section is done and where a header cannot be
read, and where a resource of another class cannot be skipped. -/
def readAnswers : List Resource → List DnsAnswer → Except Failure (List DnsAnswer)
  | [], answers => .ok answers
  | rh :: rest, answers =>
    if rh.rclass ≠ classINET then if rh.skips then readAnswers rest answers else .ok answers
    else if rh.type = typeA then
      match rh.aResource with
      | some addr => readAnswers rest (answers ++ [⟨rh.name, rh.ttl, .a addr⟩])
      | none => .error .aBody
    else if rh.type = typeCNAME then
      match rh.cnameResource with
      | some target => readAnswers rest (answers ++ [⟨rh.name, rh.ttl, .cname target⟩])
      | none => .error .cnameBody
    else if rh.skips then readAnswers rest answers
    else .error .skipAnswer

def decodeUpstreamResponse (m : Message) : Except Failure Response :=
  match m.header with
  | none => .error .parseHeader
  | some hdr =>
    if ¬ hdr.response then .error .noQR
    else
      match m.questions with
      | none => .error .skipQuestions
      | some _ => (readAnswers m.answers []).map fun answers => ⟨hdr.rcode, false, answers⟩

/-- The servers in turn, each with the error of its socket or the first datagram that comes from it,
of which the buffer takes 4096 bytes. -/
def queryServers (wire : Wire) :
    List (Except String (List (BitVec 8))) → Option String → Except Failure Response
  | [], lastErr => .error (.upstream (lastErr.getD "dns: all upstreams failed"))
  | .error e :: rest, _ => queryServers wire rest (some e)
  | .ok datagram :: _, _ => decodeUpstreamResponse (wire.parse (datagram.take 4096))

def resolve (wire : Wire) (id : BitVec 16) (q : Question)
    (arrivals : List (Except String (List (BitVec 8)))) : Except Failure Response :=
  match wire.pack id q with
  | none => .error .encode
  | some _ => queryServers wire arrivals none

section Genuine

/-- The answer a resource holds, for the classes and types that are passed on. -/
def Resource.answer (r : Resource) : Option DnsAnswer :=
  if r.rclass ≠ classINET then none
  else if r.type = typeA then r.aResource.map fun addr => ⟨r.name, r.ttl, .a addr⟩
  else if r.type = typeCNAME then r.cnameResource.map fun target => ⟨r.name, r.ttl, .cname target⟩
  else none

/-- A resource whose body is what its type and class say. -/
def Resource.WellFormed (r : Resource) : Prop :=
  if r.rclass = classINET ∧ r.type = typeA then r.aResource.isSome
  else if r.rclass = classINET ∧ r.type = typeCNAME then r.cnameResource.isSome
  else r.skips

/-- A complete and well-formed response, not truncated, to the question that was sent. -/
structure Genuine (id : BitVec 16) (q : Question) (m : Message) : Prop where
  header : ∃ hdr, m.header = some hdr ∧ hdr.response ∧ hdr.id = id ∧ hdr.truncated = false
  question : m.questions = some [q]
  resources : ∀ r ∈ m.answers, r.WellFormed
  stop : m.stop = .done
  trailer : m.trailer

/-- The resources the loop comes to: it ends early at one of another class that cannot be skipped.
-/
def reached (rs : List Resource) : List Resource :=
  rs.takeWhile fun r => r.rclass = classINET || r.skips

/-- What is left to the network: a datagram that has the form of a response, with bodies that can be
read as far as the loop comes, answers the question that was sent, is not truncated, and neither
ends nor breaks off between its resources or behind them. -/
def Unforged (id : BitVec 16) (q : Question) (m : Message) : Prop :=
  ∀ hdr questions, m.header = some hdr → hdr.response → m.questions = some questions →
    (∀ r ∈ reached m.answers, r.WellFormed) →
    hdr.id = id ∧ hdr.truncated = false ∧ questions = [q] ∧
      (∀ r ∈ m.answers, r.rclass ≠ classINET → r.skips) ∧ m.stop = .done ∧ m.trailer

/-- The datagram that is read: a server is passed over only where its socket fails. -/
def firstDatagram (arrivals : List (Except String (List (BitVec 8)))) : Option (List (BitVec 8)) :=
  arrivals.findSome? Except.toOption

variable {wire : Wire} {id : BitVec 16} {q : Question} {m : Message} {res : Response}

/-- A resource of the class the loop reads: it goes on exactly where the body is well formed. -/
theorem readAnswers_inet {r : Resource} (rs : List Resource) (acc answers : List DnsAnswer)
    (hclass : r.rclass = classINET) : readAnswers (r :: rs) acc = .ok answers ↔
      r.WellFormed ∧ readAnswers rs (acc ++ r.answer.toList) = .ok answers := by
  unfold Resource.WellFormed Resource.answer
  rw [readAnswers]
  by_cases hA : r.type = typeA
  · cases r.aResource <;> simp [hclass, hA]
  · by_cases hC : r.type = typeCNAME
    · have hne : typeCNAME ≠ typeA := by decide
      cases r.cnameResource <;> simp [hclass, hC, hne]
    · cases r.skips <;> simp [hclass, hA, hC]

theorem wellFormed_of_skips {r : Resource} (hclass : r.rclass ≠ classINET) (hskips : r.skips) :
    r.WellFormed ∧ r.answer = none := by
  unfold Resource.WellFormed Resource.answer
  rw [if_neg fun hc => hclass hc.1, if_neg fun hc => hclass hc.1, if_pos hclass]
  exact ⟨hskips, rfl⟩

/-- The loop succeeds where every body it comes to is well formed, and passes on what they hold. -/
theorem readAnswers_ok_iff (rs : List Resource) (acc answers : List DnsAnswer) :
    readAnswers rs acc = .ok answers ↔ (∀ r ∈ reached rs, r.WellFormed) ∧
      acc ++ (reached rs).filterMap Resource.answer = answers := by
  induction rs generalizing acc with
  | nil => simp [readAnswers, reached]
  | cons r rs ih =>
    have hstep (h : (r.rclass = classINET || r.skips) = true) : reached (r :: rs) = r :: reached rs := by
      simp only [reached, List.takeWhile_cons, h, if_true]
    by_cases hclass : r.rclass = classINET
    · rw [readAnswers_inet rs acc answers hclass, ih, hstep (by simp [hclass]),
        List.forall_mem_cons, and_assoc, List.append_assoc, List.filterMap_cons]
      cases r.answer <;> rfl
    · rw [readAnswers, if_pos hclass]
      by_cases hskips : r.skips
      · obtain ⟨hwell, hnone⟩ := wellFormed_of_skips hclass hskips
        rw [if_pos hskips, ih, hstep (by simp [hskips]), List.forall_mem_cons, List.filterMap_cons_none hnone]
        simp [hwell]
      · rw [if_neg hskips]
        simp [reached, hclass, hskips]

theorem reached_eq {rs : List Resource} (h : ∀ r ∈ rs, r.rclass ≠ classINET → r.skips) :
    reached rs = rs := by
  refine List.takeWhile_eq_self_iff.mpr fun r hr => ?_
  by_cases hclass : r.rclass = classINET
  · simp [hclass]
  · simp [h r hr hclass]

theorem decode_ok_iff : decodeUpstreamResponse m = .ok res ↔ ∃ hdr questions, m.header = some hdr ∧
    hdr.response ∧ m.questions = some questions ∧ (∀ r ∈ reached m.answers, r.WellFormed) ∧
    res = ⟨hdr.rcode, false, (reached m.answers).filterMap Resource.answer⟩ := by
  unfold decodeUpstreamResponse
  cases m.header with
  | none => simp
  | some hdr =>
    cases hqr : hdr.response with
    | false => simp [hqr]
    | true =>
      cases m.questions with
      | none => simp [hqr]
      | some questions =>
        simp only [hqr, not_true_eq_false, if_false, ExceptWalk.map_eq_ok, readAnswers_ok_iff, List.nil_append]
        constructor
        · rintro ⟨_, ⟨hwell, rfl⟩, rfl⟩
          exact ⟨hdr, questions, rfl, hqr, rfl, hwell, rfl⟩
        · rintro ⟨_, _, hhdr, -, -, hwell, rfl⟩
          cases hhdr
          exact ⟨_, ⟨hwell, rfl⟩, rfl⟩

theorem decode_genuine_iff : (∀ res, decodeUpstreamResponse m = .ok res →
    Genuine id q m ∧ res.answers = m.answers.filterMap Resource.answer) ↔ Unforged id q m := by
  constructor
  · intro h hdr questions hhdr hqr hquestions hwell
    obtain ⟨hgenuine, -⟩ := h _ (decode_ok_iff.mpr ⟨hdr, questions, hhdr, hqr, hquestions, hwell, rfl⟩)
    obtain ⟨hdr', hhdr', -, hid, htruncated⟩ := hgenuine.header
    cases hhdr.symm.trans hhdr'
    cases hquestions.symm.trans hgenuine.question
    refine ⟨hid, htruncated, rfl, fun r hr hclass => ?_, hgenuine.stop, hgenuine.trailer⟩
    have hr := hgenuine.resources r hr
    rwa [Resource.WellFormed, if_neg fun hc => hclass hc.1, if_neg fun hc => hclass hc.1] at hr
  · intro hunforged res h
    obtain ⟨hdr, questions, hhdr, hqr, hquestions, hwell, rfl⟩ := decode_ok_iff.mp h
    obtain ⟨hid, htruncated, rfl, hskips, hstop, htrailer⟩ := hunforged hdr questions hhdr hqr hquestions hwell
    rw [reached_eq hskips] at hwell ⊢
    exact ⟨⟨⟨hdr, hhdr, hqr, hid, htruncated⟩, hquestions, hwell, hstop, htrailer⟩, rfl⟩

/-- The first datagram decides. -/
theorem queryServers_ok_iff (arrivals : List (Except String (List (BitVec 8))))
    (lastErr : Option String) : queryServers wire arrivals lastErr = .ok res ↔
      ∃ datagram, firstDatagram arrivals = some datagram ∧
        decodeUpstreamResponse (wire.parse (datagram.take 4096)) = .ok res := by
  induction arrivals generalizing lastErr with
  | nil => simp [queryServers, firstDatagram]
  | cons arrival arrivals ih =>
    cases arrival with
    | error e => exact ih (some e)
    | ok datagram => exact ⟨fun h => ⟨datagram, rfl, h⟩, fun ⟨_, hfirst, h⟩ => by cases hfirst; exact h⟩

end Genuine

/-- Where the query can be packed: what is answered comes from a complete and well-formed response
to it exactly if the first datagram that arrives, from whichever server, is not a forged, truncated
or cut response. -/
theorem resolve_answers_genuine_iff (wire : Wire) (id : BitVec 16) (q : Question)
    (arrivals : List (Except String (List (BitVec 8)))) :
    (∀ res, resolve wire id q arrivals = .ok res →
    ∃ datagram, firstDatagram arrivals = some datagram ∧
      Genuine id q (wire.parse (datagram.take 4096)) ∧
      res.answers = (wire.parse (datagram.take 4096)).answers.filterMap Resource.answer) ↔
    ((wire.pack id q).isSome → ∀ datagram, firstDatagram arrivals = some datagram →
      Unforged id q (wire.parse (datagram.take 4096))) := by
  unfold resolve
  cases wire.pack id q with
  | none => simp
  | some query =>
    simp only [queryServers_ok_iff, Option.isSome_some, true_implies]
    constructor
    · intro h datagram hfirst
      refine decode_genuine_iff.mp fun res hdecode => ?_
      obtain ⟨read, hread, hgenuine⟩ := h res ⟨datagram, hfirst, hdecode⟩
      cases hfirst.symm.trans hread
      exact hgenuine
    · rintro h res ⟨datagram, hfirst, hdecode⟩
      exact ⟨datagram, hfirst, decode_genuine_iff.mpr (h datagram hfirst) res hdecode⟩

/-- A network that answers every query with one message. -/
def replying (m : Message) : Wire := ⟨fun _ _ => some [], fun _ => m⟩

def wwwQuestion : Question := ⟨"www.example.", 1, 1⟩

def wwwAddress : Resource := ⟨"www.example.", 1, 1, 60, some 0x0a000001, none, true⟩

def wwwReply : Message := ⟨some ⟨1, true, false, 0⟩, some [wwwQuestion], [wwwAddress], .done, true⟩

def wwwResponse : Response := ⟨0, false, [⟨"www.example.", 60, .a 0x0a000001⟩]⟩

/-- The second server answers in time with the response; what comes behind it from a third is never
read. -/
theorem resolve_answers_genuine_second :
    resolve (replying wwwReply) 1 wwwQuestion [.error "i/o timeout", .ok [0],
    .ok [1]] = .ok wwwResponse ∧ Genuine 1 wwwQuestion wwwReply := by
  have hunforged : Unforged 1 wwwQuestion wwwReply := by
    intro hdr questions hhdr _ hquestions _
    cases hhdr
    cases hquestions
    exact ⟨rfl, rfl, rfl, by decide, rfl, rfl⟩
  have hanswer : resolve (replying wwwReply) 1 wwwQuestion [.error "i/o timeout",
      .ok [0], .ok [1]] = .ok wwwResponse := by
    decide
  obtain ⟨_, -, hgenuine, -⟩ :=
    (resolve_answers_genuine_iff (replying wwwReply) 1 wwwQuestion _).mpr
    (fun _ _ _ => hunforged) wwwResponse hanswer
  exact ⟨hanswer, hgenuine⟩

def forgedReply : Message :=
  { wwwReply with header := some ⟨7, true, false, 0⟩, questions := some [⟨"mail.example.", 1, 1⟩] }

def truncatedReply : Message := { wwwReply with header := some ⟨1, true, true, 0⟩ }

def cutReply : Message := { wwwReply with stop := .malformed, trailer := false }

/-- A response to another query, one with the bit for truncation, and one that is cut in the header
of its second resource: each is passed on as the answer. -/
theorem forged_truncated_and_cut_accepted : (resolve (replying forgedReply) 1 wwwQuestion
    [.ok [0]] = .ok wwwResponse ∧ ¬ Genuine 1 wwwQuestion forgedReply) ∧
    (resolve (replying truncatedReply) 1 wwwQuestion [.ok [0]] = .ok wwwResponse ∧
    ¬ Genuine 1 wwwQuestion truncatedReply) ∧ (resolve (replying cutReply) 1 wwwQuestion
    [.ok [0]] = .ok wwwResponse ∧ ¬ Genuine 1 wwwQuestion cutReply) := by
  refine ⟨⟨by decide, fun h => absurd h.question (by decide)⟩, ⟨by decide, fun h => ?_⟩,
    by decide, fun h => absurd h.stop (by decide)⟩
  obtain ⟨hdr, hhdr, -, -, htruncated⟩ := h.header
  cases hhdr
  cases htruncated

end Juneau.UpstreamForwarder
