import Z80Atlas.Session.Analysis

namespace Z80Atlas

-- The passes of an analysis. They can be run one by one and in any order.
inductive Pass where
  | enqueueStart
  | collect
  | labelInterrupts
  | labelStarts
  | relocate
  | linkFlowThroughs
  | promoteSubroutines
  | localize
  | assignOwners
  | linkCalls
  | countStatistics
  | nameLabels
  | commentLabels
  deriving DecidableEq

namespace Session

def after (session : Session) : Pass → Session
  | .enqueueStart => session.enqueueStart
  | .collect => session.collect
  | .labelInterrupts => session.labelInterrupts
  | .labelStarts => session.labelStarts
  | .relocate => session.relocate
  | .linkFlowThroughs => session.linkFlowThroughs
  | .promoteSubroutines => session.promoteSubroutines
  | .localize => session.localize
  | .assignOwners => session.assignOwners
  | .linkCalls => session.linkCalls
  | .countStatistics => session.countStatistics
  | .nameLabels => session.nameLabels
  | .commentLabels => session.commentLabels

def afterAll (session : Session) (passes : List Pass) : Session := passes.foldl after session

end Session

end Z80Atlas
