import Z80Atlas.Analysis.Discovery
import Z80Atlas.Analysis.Entry
import Z80Atlas.Analysis.FlowThrough
import Z80Atlas.Analysis.Locality
import Z80Atlas.Analysis.Naming
import Z80Atlas.Analysis.Ownership
import Z80Atlas.Analysis.Relocation
import Z80Atlas.Analysis.Statistics
import Z80Atlas.Analysis.Subroutine
import Z80Atlas.Report.Listing

namespace Z80Atlas

namespace Session

def noteLabels (session : Session) : Session :=
  session.note ("Collected " ++ Text.decimal session.labels.size ++ " labels")

def classify (session : Session) : Session :=
  session.enqueueStart.collect.noteLabels.labelInterrupts.labelStarts.relocate.linkFlowThroughs
    |>.promoteSubroutines.localize.assignOwners.linkCalls.countStatistics

def analyse (session : Session) : Session :=
  let session := session.classify.nameLabels
  if session.config.disableComments then session else session.commentLabels

def keepListing (session : Session) (lines : List String) : Session :=
  { session.indexNames with listing := some lines }

def disassemble (session : Session) : Session :=
  let session := session.analyse
  session.keepListing session.listingLines

def disassemble? (session : Session) : Option Session :=
  let session := session.analyse
  session.listingLines?.map session.keepListing

theorem eq_disassemble_of_disassemble? {session after : Session}
    (h : session.disassemble? = some after) : after = session.disassemble := by
  rw [disassemble?] at h
  obtain ⟨lines, hlines, rfl⟩ := Option.map_eq_some_iff.mp h
  rw [eq_listingLines_of_listingLines? hlines, disassemble]

-- The listing. Before there is one, a warning is recorded and one empty line stands for it.
def readListing (session : Session) : Session × List String :=
  match session.listing with
  | some lines => (session, lines)
  | none => (session.warn .noDisassembly none "No disassembly was done.", [""])

end Session

def disassembleBytes (origin : Address) (bytes : List UInt8) (entries : List Address) : String :=
  let session := ({} : Session).load origin bytes
  let session := entries.foldl (·.fixLabel · none) session
  "\n".intercalate session.disassemble.readListing.2

end Z80Atlas
