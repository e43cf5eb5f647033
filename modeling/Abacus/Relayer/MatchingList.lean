import Abacus.Core.Message

/-!
# Matching lists

Patterns over the domains and addresses of a message. A list without rules
answers with the default of its caller, an empty list of rules with `false`.
-/

namespace Abacus

/-- A pattern for one value. -/
inductive Filter (α : Type)
  | wildcard
  | enumerated (list : List α)
  deriving DecidableEq

/-- Whether a value matches a filter. -/
def Filter.matches [DecidableEq α] (v : α) : Filter α → Bool
  | .wildcard => true
  | .enumerated list => list.any fun i => i == v

/-- A rule of a matching list. -/
structure ListElement where
  srcDomain : Filter UInt32
  srcAddress : Filter H256
  dstDomain : Filter UInt32
  dstAddress : Filter H256
  deriving DecidableEq

/-- What the rules look at. -/
structure MatchInfo where
  srcDomain : UInt32
  srcAddr : H256
  dstDomain : UInt32
  dstAddr : H256
  deriving DecidableEq

/-- What the rules look at in a message. -/
def MatchInfo.fromMessage (msg : AbacusMessage) : MatchInfo where
  srcDomain := msg.origin
  srcAddr := msg.sender
  dstDomain := msg.destination
  dstAddr := msg.recipient

/-- Whether some rule matches. -/
def matchesAnyRule (rules : List ListElement) (info : MatchInfo) : Bool :=
  rules.any fun rule =>
    rule.srcDomain.matches info.srcDomain &&
      rule.srcAddress.matches info.srcAddr &&
      rule.dstDomain.matches info.dstDomain &&
      rule.dstAddress.matches info.dstAddr

/-- A set of patterns for the messages to relay. -/
structure MatchingList where
  rules : Option (List ListElement)
  deriving DecidableEq

namespace MatchingList

/-- Whether the rules match, or the default without rules. -/
def matchesInfo (list : MatchingList) (info : MatchInfo) (default : Bool) :
    Bool :=
  match list.rules with
  | some rules => matchesAnyRule rules info
  | none => default

/-- Whether a message matches any of the rules. -/
def msgMatches (list : MatchingList) (msg : AbacusMessage) (default : Bool) :
    Bool :=
  list.matchesInfo (.fromMessage msg) default

end MatchingList

end Abacus
