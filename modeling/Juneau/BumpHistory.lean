import Juneau.StoreCalls

namespace Juneau

open MapProgram

section Logs

variable {α : Type}

/-- Every entry of a log, newest first, meets `P` against the entries before it. -/
def Each (P : List α → α → Prop) : List α → Prop
  | [] => True
  | r :: older => P older r ∧ Each P older

def NoneSince (P Q : α → Prop) : List α → Prop
  | [] => True
  | r :: older => Q r ∨ ¬ P r ∧ NoneSince P Q older

end Logs

/-- What a call can change in the data plane: the rules of an id, or the entry of one membership
key. -/
inductive Content
  | rules (l : Layer) (id : BitVec 32)
  | member (key : MembershipKey)

def Content.Same (s t : Node) : Content → Prop
  | .rules l id => t.metas l id = s.metas l id ∧ t.rules l id = s.rules l id
  | .member key => t.members key = s.members key

structure CallRecord where
  call : StoreCall
  bumpFails : Bool
  before : Node

namespace CallRecord

def result (r : CallRecord) : Except StoreError Unit :=
  (policyMachine.eval (bumpFaults r.bumpFails) r.call.prog r.before).1

def after (r : CallRecord) : Node :=
  (policyMachine.eval (bumpFaults r.bumpFails) r.call.prog r.before).2

def subject (r : CallRecord) : Subject := r.call.subject

def Bumped (r : CallRecord) : Prop := r.after.current = r.before.current + 1

def BumpFailed (r : CallRecord) : Prop := r.result = .error r.call.bumpError

def Changed (content : Content) (r : CallRecord) : Prop := ¬ content.Same r.before r.after

end CallRecord

def lastNode (s : Node) : List CallRecord → Node
  | [] => s
  | r :: _ => r.after

def callLog (s : Node) : List (StoreCall × Bool) → List CallRecord
  | [] => []
  | (c, f) :: older => ⟨c, f, lastNode s (callLog s older)⟩ :: callLog s older

/-- The content stored for an owner is what stands at the keys its calls have named. -/
def Subject.StoredIn (log : List CallRecord) : Subject → Content → Prop
  | .rules l id, content => content = .rules l id
  | .member owner, content => ∃ r ∈ log, ∃ key groupIDs, r.call = .applyMember owner key groupIDs ∧
    content = .member key

/-- A call that returns nil leaves no change of its subject's content without a Bump, whoever made
the change. -/
def NilMeansBumped (older : List CallRecord) (r : CallRecord) : Prop :=
  r.result = .ok () → ∀ content, r.subject.StoredIn (r :: older) content →
    NoneSince (CallRecord.Changed content) CallRecord.Bumped (r :: older)

/-- The last Bump for the rules did not fail. Of a membership key, which several owners can write,
no change whose Bump failed is without a later one. -/
def Content.Settled (log : List CallRecord) : Content → Prop
  | .rules l id => NoneSince (fun r => r.subject = .rules l id ∧ r.BumpFailed)
    (fun r => r.subject = .rules l id ∧ r.Bumped) log
  | .member key => NoneSince (fun r => r.BumpFailed ∧ r.Changed (.member key)) CallRecord.Bumped log

def StoreCall.StillHeld (s : Node) (c : StoreCall) : Prop :=
  ∀ entry, c.wanted = some entry → s.members entry.key = some (membershipVal entry.groupIDs)

/-- A call that skips the Bump comes when the Bumps for its content are settled and, for a
membership, while the table still holds what the store remembers. -/
def SkipsSafely (older : List CallRecord) (r : CallRecord) : Prop :=
  r.call.skipsBump r.before = true → (∀ content, r.subject.StoredIn (r :: older) content →
    content.Settled older) ∧ r.call.StillHeld r.before

section Frames

variable (c : StoreCall) (s : Node)

theorem memberPublished_frame (owner : String) (entry : Option MembershipEntry) :
    ∃ members, StoreCall.memberPublished owner entry s = { s with members := members } := by
  cases entry with
  | none =>
    simp only [StoreCall.memberPublished, withoutMember]
    split
    · exact ⟨s.members, rfl⟩
    · exact ⟨_, rfl⟩
  | some entry =>
    simp only [StoreCall.memberPublished, withMember]
    split
    · exact ⟨_, rfl⟩
    · split
      · exact ⟨_, rfl⟩
      · exact ⟨_, rfl⟩

/-- Publishing changes neither the epoch counter of the store nor what it remembers as installed. -/
theorem published_frame :
    (c.published s).current = s.current ∧ (c.published s).installed = s.installed := by
  cases c with
  | applyRules l rs => exact ⟨rfl, rfl⟩
  | deleteRules l id =>
    simp only [StoreCall.published, withoutRuleSet]
    split <;> exact ⟨rfl, rfl⟩
  | applyMember owner key groupIDs =>
    obtain ⟨members, h⟩ := memberPublished_frame s owner (StoreCall.applyMember owner key groupIDs).wanted
    rw [StoreCall.published, h]
    exact ⟨rfl, rfl⟩
  | deleteMember owner =>
    obtain ⟨members, h⟩ := memberPublished_frame s owner none
    rw [StoreCall.published, h]
    exact ⟨rfl, rfl⟩

@[simp] theorem published_current : (c.published s).current = s.current := (published_frame c s).1

@[simp] theorem published_installed : (c.published s).installed = s.installed :=
  (published_frame c s).2

@[simp] theorem remembered_current : (c.remembered s).current = s.current := by
  cases c <;> rfl

@[simp] theorem remembered_metas : (c.remembered s).metas = s.metas := by
  cases c <;> rfl

@[simp] theorem remembered_rules : (c.remembered s).rules = s.rules := by
  cases c <;> rfl

variable {c} {l : Layer} {id : BitVec 32}

theorem published_rules_of_ne (h : c.subject ≠ .rules l id) :
    (c.published s).metas l id = s.metas l id ∧ (c.published s).rules l id = s.rules l id := by
  have hcell : ∀ (l' : Layer) (id' : BitVec 32) (inner : Option (List (RuleVal l')))
      (metadata : Option (MetaVal l')), Subject.rules l' id' ≠ .rules l id →
      ((s.setRules l' id' inner).setMeta l' id' metadata).metas l id = s.metas l id ∧
        ((s.setRules l' id' inner).setMeta l' id' metadata).rules l id = s.rules l id := by
    intro l' id' inner metadata hne
    by_cases hl : l = l'
    · subst hl
      have hid : id ≠ id' := by
        rintro rfl
        exact hne rfl
      simp [hid]
    · rw [setMeta_metas_of_ne _ _ _ hl, setMeta_rules, setRules_rules_of_ne _ _ _ hl]
      exact ⟨rfl, rfl⟩
  cases c with
  | applyRules l' rs => exact hcell l' rs.groupID _ _ h
  | deleteRules l' id' =>
    simp only [StoreCall.published, withoutRuleSet]
    split
    · exact ⟨rfl, rfl⟩
    · exact hcell l' id' none none h
  | applyMember owner key groupIDs =>
    obtain ⟨members, hm⟩ := memberPublished_frame s owner (StoreCall.applyMember owner key groupIDs).wanted
    rw [StoreCall.published, hm]
    exact ⟨rfl, rfl⟩
  | deleteMember owner =>
    obtain ⟨members, hm⟩ := memberPublished_frame s owner none
    rw [StoreCall.published, hm]
    exact ⟨rfl, rfl⟩

theorem remembered_installed_of_ne (h : c.subject ≠ .rules l id) :
    (c.remembered s).installed l id = s.installed l id := by
  have hcell : ∀ (l' : Layer) (id' : BitVec 32) (rs : Option RuleSet), Subject.rules l' id' ≠ .rules l id →
      (s.setInstalled l' id' rs).installed l id = s.installed l id := by
    intro l' id' rs hne
    by_cases hl : l = l'
    · subst hl
      have hid : id ≠ id' := by
        rintro rfl
        exact hne rfl
      simp [hid]
    · rw [setInstalled_installed_of_ne _ _ _ hl]
  cases c with
  | applyRules l' rs => exact hcell l' rs.groupID _ h
  | deleteRules l' id' => exact hcell l' id' none h
  | applyMember | deleteMember => rfl

end Frames

variable {r : CallRecord}

theorem not_bumped_of_current (h : r.after.current = r.before.current) : ¬ r.Bumped := by
  intro hb
  rw [CallRecord.Bumped, h] at hb
  bv_omega

theorem record_cases (r : CallRecord) :
    r.after = r.before ∧ r.result ≠ .ok () ∨
    r.call.skipsBump r.before = true ∧ r.after = r.call.published r.before ∨
    r.BumpFailed ∧ r.after = r.call.published r.before ∨
    r.Bumped ∧ r.after = r.call.remembered (r.call.published r.before).bumped := by
  have heval := eval_storeCall r.bumpFails r.call r.before
  rw [StoreCall.outcome] at heval
  cases hrej : r.call.rejection with
  | some e =>
    rw [hrej] at heval
    left
    rw [CallRecord.after, CallRecord.result, heval]
    exact ⟨rfl, by simp⟩
  | none =>
    rw [hrej] at heval
    dsimp only at heval
    right
    by_cases hskip : r.call.skipsBump r.before = true
    · rw [if_pos hskip] at heval
      left
      rw [CallRecord.after, heval]
      exact ⟨hskip, rfl⟩
    · rw [if_neg hskip] at heval
      right
      by_cases hf : r.bumpFails = true
      · rw [if_pos hf] at heval
        left
        rw [CallRecord.BumpFailed, CallRecord.after, CallRecord.result, heval]
        exact ⟨rfl, rfl⟩
      · rw [if_neg hf] at heval
        right
        rw [CallRecord.Bumped, CallRecord.after, heval]
        exact ⟨by simp [Node.bumped], rfl⟩

/-- What the store remembers of the rules is what the tables hold. -/
def Content.Remembered (s : Node) : Content → Prop
  | .rules l id => ∀ rs, s.installed l id = some rs →
      s.metas l id = some (l.encodeMeta rs) ∧ s.rules l id = some (ruleArray l rs)
  | .member _ => True

theorem remembered_self {c : StoreCall} {l : Layer} {id : BitVec 32} (h : c.subject = .rules l id)
    (s : Node) : (Content.rules l id).Remembered (c.remembered (c.published s).bumped) := by
  cases c with
  | applyRules l' rs =>
    cases h
    intro fitted hf
    simp only [StoreCall.remembered, setInstalled_installed, Function.update_self, Option.some.injEq] at hf
    subst hf
    simp [StoreCall.remembered, StoreCall.published, Node.bumped, withRuleSet]
  | deleteRules l' id' =>
    cases h
    intro rs hrs
    simp [StoreCall.remembered] at hrs
  | applyMember | deleteMember => cases h

variable {s : Node} {l : Layer} {id : BitVec 32} {log : List CallRecord}

theorem same_of_ne (hne : r.subject ≠ .rules l id) : (Content.rules l id).Same r.before r.after ∧
    r.after.installed l id = r.before.installed l id := by
  have hsame := published_rules_of_ne r.before hne
  rcases record_cases r with ⟨ha, _⟩ | ⟨_, ha⟩ | ⟨_, ha⟩ | ⟨_, ha⟩
  · rw [ha]
    exact ⟨⟨rfl, rfl⟩, rfl⟩
  · rw [ha, published_installed]
    exact ⟨hsame, rfl⟩
  · rw [ha, published_installed]
    exact ⟨hsame, rfl⟩
  · rw [ha, remembered_installed_of_ne _ hne, Content.Same, remembered_metas, remembered_rules]
    refine ⟨hsame, ?_⟩
    change (r.call.published r.before).installed l id = _
    rw [published_installed]

/-- A call that skips the Bump safely changes nothing: it writes what is there. -/
theorem same_of_skip {c : StoreCall} (hskip : c.skipsBump s = true)
    (hrem : ∀ l id, c.subject = .rules l id → (Content.rules l id).Remembered s)
    (hheld : c.StillHeld s) (content : Content) : content.Same s (c.published s) := by
  cases c with
  | applyRules l rs =>
    simp only [StoreCall.skipsBump, decide_eq_true_eq] at hskip
    obtain ⟨hm, hr⟩ := hrem _ _ rfl _ hskip
    cases content with
    | member key => rfl
    | rules l' id' =>
      by_cases hself : Subject.rules l rs.groupID = .rules l' id'
      · cases hself
        simp [Content.Same, StoreCall.published, withRuleSet, hm, hr]
      · exact published_rules_of_ne s hself
  | deleteRules l id => simp [StoreCall.skipsBump] at hskip
  | deleteMember owner =>
    simp only [StoreCall.skipsBump, decide_eq_true_eq] at hskip
    have hpublished : (StoreCall.deleteMember owner).published s = s := by
      simp [StoreCall.published, StoreCall.memberPublished, withoutMember, hskip]
    rw [hpublished]
    cases content <;> simp [Content.Same]
  | applyMember owner key groupIDs =>
    simp only [StoreCall.skipsBump, decide_eq_true_eq] at hskip
    have hpublished : (StoreCall.applyMember owner key groupIDs).published s = s := by
      rw [StoreCall.published]
      cases hw : (StoreCall.applyMember owner key groupIDs).wanted with
      | none => simp [StoreCall.memberPublished, withoutMember, hskip, hw]
      | some entry =>
        have hcell := hheld entry hw
        simp [StoreCall.memberPublished, withMember, hskip, hw, Node.link, ← hcell]
    rw [hpublished]
    cases content <;> simp [Content.Same]

/-- Where the Bumps of some content are settled, the memory agrees with the tables and every change
of it has been followed by a Bump. -/
def Accounted (s : Node) (log : List CallRecord) : Prop :=
  ∀ content : Content, content.Settled log → content.Remembered (lastNode s log) ∧
    NoneSince (CallRecord.Changed content) CallRecord.Bumped log

theorem unchanged_of_skip (h : Accounted s log) (hb : r.before = lastNode s log)
    (hsafe : SkipsSafely log r) (hskip : r.call.skipsBump r.before = true)
    (ha : r.after = r.call.published r.before) (content : Content) : ¬ r.Changed content := by
  obtain ⟨hset, hheld⟩ := hsafe hskip
  rw [CallRecord.Changed, not_not, ha]
  refine same_of_skip hskip (fun l id hsub => ?_) hheld content
  have hstored : r.subject.StoredIn (r :: log) (.rules l id) := by
    rw [CallRecord.subject, hsub]
    rfl
  rw [hb]
  exact (h _ (hset _ hstored)).1

theorem settled_member_tail {key : MembershipKey} (hb : ¬ r.Bumped)
    (h : (Content.member key).Settled (r :: log)) :
    ¬ (r.BumpFailed ∧ r.Changed (.member key)) ∧ (Content.member key).Settled log :=
  Or.resolve_left h hb

theorem settled_rules_tail (hb : ¬ (r.subject = .rules l id ∧ r.Bumped))
    (h : (Content.rules l id).Settled (r :: log)) :
    ¬ (r.subject = .rules l id ∧ r.BumpFailed) ∧ (Content.rules l id).Settled log :=
  Or.resolve_left h hb

theorem accounted_member (h : Accounted s log) (hb : r.before = lastNode s log)
    (hsafe : SkipsSafely log r)
    {key : MembershipKey} (hset : (Content.member key).Settled (r :: log)) :
    NoneSince (CallRecord.Changed (.member key)) CallRecord.Bumped (r :: log) := by
  rcases record_cases r with ⟨ha, _⟩ | ⟨hskip, ha⟩ | ⟨hfail, _⟩ | ⟨hbump, _⟩
  · have hnb := not_bumped_of_current (by rw [ha] : r.after.current = r.before.current)
    obtain ⟨_, htail⟩ := settled_member_tail hnb hset
    exact .inr ⟨fun hc => hc (by rw [ha]; rfl), (h _ htail).2⟩
  · have hnb := not_bumped_of_current (by rw [ha, published_current] : r.after.current = r.before.current)
    obtain ⟨_, htail⟩ := settled_member_tail hnb hset
    exact .inr ⟨unchanged_of_skip h hb hsafe hskip ha _, (h _ htail).2⟩
  · by_cases hbump : r.Bumped
    · exact .inl hbump
    · obtain ⟨hsame, htail⟩ := settled_member_tail hbump hset
      exact .inr ⟨fun hc => hsame ⟨hfail, hc⟩, (h _ htail).2⟩
  · exact .inl hbump

theorem remembered_of_same (hsame : (Content.rules l id).Same r.before r.after)
    (hinstalled : r.after.installed l id = r.before.installed l id)
    (h : (Content.rules l id).Remembered r.before) : (Content.rules l id).Remembered r.after := by
  intro rs hrs
  rw [hinstalled] at hrs
  rw [hsame.1, hsame.2]
  exact h rs hrs

theorem accounted_rules (h : Accounted s log) (hb : r.before = lastNode s log)
    (hsafe : SkipsSafely log r) (hset : (Content.rules l id).Settled (r :: log)) :
    (Content.rules l id).Remembered r.after ∧
      NoneSince (CallRecord.Changed (.rules l id)) CallRecord.Bumped (r :: log) := by
  -- a call that keeps the content and what is remembered of it passes on what held before it
  have hkeep : (Content.rules l id).Settled log → (Content.rules l id).Same r.before r.after →
      r.after.installed l id = r.before.installed l id → (Content.rules l id).Remembered r.after ∧
        NoneSince (CallRecord.Changed (.rules l id)) CallRecord.Bumped (r :: log) := by
    intro htail hsame hinstalled
    obtain ⟨hrem, hnone⟩ := h _ htail
    rw [← hb] at hrem
    exact ⟨remembered_of_same hsame hinstalled hrem, .inr ⟨not_not.mpr hsame, hnone⟩⟩
  by_cases hσ : r.subject = .rules l id
  · rcases record_cases r with ⟨ha, _⟩ | ⟨hskip, ha⟩ | ⟨hfail, ha⟩ | ⟨hbump, ha⟩
    · have hnb := not_bumped_of_current (by rw [ha] : r.after.current = r.before.current)
      exact hkeep (settled_rules_tail (fun hq => hnb hq.2) hset).2 (by rw [ha]; exact ⟨rfl, rfl⟩) (by rw [ha])
    · have hnb := not_bumped_of_current (by rw [ha, published_current] : r.after.current = r.before.current)
      exact hkeep (settled_rules_tail (fun hq => hnb hq.2) hset).2
        (not_not.mp (unchanged_of_skip h hb hsafe hskip ha _)) (by rw [ha, published_installed])
    · have hnb := not_bumped_of_current (by rw [ha, published_current] : r.after.current = r.before.current)
      exact absurd ⟨hσ, hfail⟩ (settled_rules_tail (fun hq => hnb hq.2) hset).1
    · rw [ha]
      exact ⟨remembered_self hσ r.before, .inl hbump⟩
  · obtain ⟨hsame, hinstalled⟩ := same_of_ne hσ
    exact hkeep (settled_rules_tail (fun hq => hσ hq.1) hset).2 hsame hinstalled

theorem accounted_cons (h : Accounted s log) (hb : r.before = lastNode s log)
    (hsafe : SkipsSafely log r) : Accounted s (r :: log) := by
  intro content hset
  cases content with
  | rules l id => exact accounted_rules h hb hsafe hset
  | member key => exact ⟨trivial, accounted_member h hb hsafe hset⟩

theorem nilMeansBumped_of_accounted (h : Accounted s log) (hb : r.before = lastNode s log)
    (hsafe : SkipsSafely log r) : NilMeansBumped log r := by
  intro hok content hstored
  rcases record_cases r with ⟨_, hne⟩ | ⟨hskip, ha⟩ | ⟨hfail, _⟩ | ⟨hbump, _⟩
  · exact absurd hok hne
  · exact .inr ⟨unchanged_of_skip h hb hsafe hskip ha content, (h content ((hsafe hskip).1 content hstored)).2⟩
  · rw [CallRecord.BumpFailed, hok] at hfail
    cases hfail
  · exact .inl hbump

/-- A store that remembers nothing yet, taken through any calls whose Bumps may fail:
while calls skip the Bump safely, nil means that the last change has been followed by one. -/
theorem nil_return_bumped_since_change {s : Node} {calls : List (StoreCall × Bool)}
    (hfresh : ∀ l id, s.installed l id = none) (hsafe : Each SkipsSafely (callLog s calls)) :
    Each NilMeansBumped (callLog s calls) := by
  have hboth : Accounted s (callLog s calls) ∧ Each NilMeansBumped (callLog s calls) := by
    induction calls with
    | nil =>
      refine ⟨fun content _ => ⟨?_, trivial⟩, trivial⟩
      cases content with
      | member key => trivial
      | rules l id =>
        intro rs hrs
        change s.installed l id = some rs at hrs
        rw [hfresh] at hrs
        cases hrs
    | cons call older ih =>
      obtain ⟨hacc, hnil⟩ := ih hsafe.2
      exact ⟨accounted_cons hacc rfl hsafe.1, nilMeansBumped_of_accounted hacc rfl hsafe.1, hnil⟩
  exact hboth.2

def closedRules : RuleSet := { groupID := 9 }

def openRules : RuleSet := { groupID := 9, ingress := [{ portHi := portAnyHi, verdict := .allow }] }

/-- A failed Bump that is retried with the same rules, and a resync after it; and two owners of one
key, the second of which fails to Bump and retries, before the first is resynced. -/
theorem nil_return_bumped_since_change_retry : Each NilMeansBumped (callLog Node.empty
      [(.applyRules .sg openRules, false), (.applyRules .sg openRules, false),
      (.applyRules .sg openRules, true)]) ∧ Each NilMeansBumped (callLog Node.empty
      [(.applyMember "a" ⟨7, 1⟩ [1], false), (.applyMember "b" ⟨7, 1⟩ [1], false),
        (.applyMember "b" ⟨7, 1⟩ [1], true), (.applyMember "a" ⟨7, 1⟩ [1], false)]) := by
  have hwrites {older : List CallRecord} {r : CallRecord} (h : r.call.skipsBump r.before = false) :
    SkipsSafely older r :=
    fun hskip => absurd hskip (by simp [h])
  constructor
  · refine nil_return_bumped_since_change (fun _ _ => rfl)
      ⟨fun _ => ⟨?_, fun entry h => by cases h⟩, hwrites (by decide), hwrites (by decide), trivial⟩
    rintro content rfl
    exact .inl ⟨rfl, rfl⟩
  · refine nil_return_bumped_since_change (fun _ _ => rfl)
      ⟨fun _ => ⟨?_, ?_⟩, hwrites (by decide), hwrites (by decide), hwrites (by decide), trivial⟩
    · rintro content ⟨r, -, key, groupIDs, -, rfl⟩
      exact .inl rfl
    · intro entry h
      cases h
      decide

/-- The group is closed, opened by an Apply whose Bump fails, and closed again: the last
Apply finds the rules it remembers and returns nil, with no Bump since the group was open. -/
theorem nil_return_without_bump :
    ¬ Each NilMeansBumped (callLog Node.empty
      [(.applyRules .sg closedRules, false), (.applyRules .sg openRules, true),
        (.applyRules .sg closedRules, false)]) := by
  intro h
  rcases h.1 (by decide) (.rules .sg 9) rfl with hbump | ⟨hsame, _⟩
  · exact absurd hbump (by unfold CallRecord.Bumped; decide)
  · exact absurd (not_not.mp hsame).1 (by decide)

end Juneau
