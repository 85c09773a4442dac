import Juneau.AddressRanges
import Juneau.PolicyAdmission

namespace Juneau

structure RetainReference where
  apiVersion : String
  kind : String
  ns : String
  name : String
  deriving DecidableEq, Repr

structure ReadyCondition (Reason Message : Type) where
  status : Bool
  reason : Reason
  message : Message
  observedGeneration : Nat
  deriving DecidableEq, Repr

structure AllocationLeaseClaimReference where
  name : String
  deriving DecidableEq, Repr

structure AllocationLeaseSpec where
  claimRef : AllocationLeaseClaimReference
  ownerDeletionTimestamp : Option Nat := none
  ttlSeconds : Option Int := none
  retainWhile : Option RetainReference := none
  deriving DecidableEq, Repr

end Juneau
