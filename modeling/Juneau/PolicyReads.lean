import Juneau.PacketProtocol

namespace Juneau

open MapProgram

section Reading

def PolicyOp.Lookup : PolicyOp → Prop
  | .ktime | .metaLookup _ _ | .rulesLookup _ _ | .memberLookup _ | .fragLookup _ => True
  | _ => False

theorem lookup_of_ruleRead (op : PolicyOp) (h : op.RuleRead) : op.Lookup := by
  cases op <;> trivial

theorem lookup_of_fragRead (op : PolicyOp) (h : op.FragRead) : op.Lookup := by
  cases op <;> trivial

theorem lookup_exec {op : PolicyOp} (h : op.Lookup) (fails : Bool) (s : Node) :
    policyExec op fails s = ((policyExec op false s).1, s) := by
  cases op <;> first | rfl | exact absurd h id

variable {α : Type} {p : PolicyProg α}

theorem eval_of_lookups (hp : p.Only PolicyOp.Lookup) (fails : PolicyOp → Bool) (s : Node) :
    policyMachine.eval fails p s = (evalOn s p, s) := by
  induction p with
  | ret a => rfl
  | call op k ih =>
    have hstep := lookup_exec hp.1 (fails op) s
    have hstep' := lookup_exec hp.1 false s
    change policyMachine.eval fails (k (policyExec op (fails op) s).1)
      (policyExec op (fails op) s).2 = ((policyMachine.eval (fun _ => false)
      (k (policyExec op false s).1) (policyExec op false s).2).1, s)
    rw [hstep, hstep']
    exact ih _ (hp.2 _)

end Reading

section Enforcing

variable {s : Node}

theorem evalOn_policyEnforced (vpcID aclID : BitVec 32) (d : Direction) (ip : BitVec 32) :
    evalOn s (policyEnforced vpcID aclID d ip) =
      (evalOn s (policyEnforcedByAcl aclID d) || sgEnforcing (s.members ⟨vpcID, ip⟩)) := by
  have hacl := eval_of_lookups (only_mono (only_policyEnforcedByAcl aclID d) lookup_of_ruleRead)
    (fun _ => false) s
  unfold policyEnforced evalOn
  rw [eval_bind, hacl]
  cases hby : evalOn s (policyEnforcedByAcl aclID d) with
  | true => rfl
  | false =>
    dsimp only
    rw [if_neg (by simp), perform_bind, eval_call]
    simp only [policyMachine, policyExec]
    cases s.members ⟨vpcID, ip⟩ <;> rfl

end Enforcing

end Juneau
