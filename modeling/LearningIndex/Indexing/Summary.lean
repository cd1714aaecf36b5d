import LearningIndex.Indexing.Reconciliation

/-!
# Summaries in JSON

What a worker did and what a reconciliation queued, as values.
-/

namespace LearningIndex

def WorkerSummary.toJson (summary : WorkerSummary) : Json :=
  .ofFields [
    ("handled", .natural summary.handled),
    ("degraded", .natural summary.degraded),
    ("failed", .natural summary.failed),
    ("abandoned", .natural summary.abandoned),
    ("total", .natural summary.total),
    ("incomplete", .bool summary.isIncomplete)]

def ReconciliationMode.name : ReconciliationMode → String
  | full => "full"
  | incremental => "incremental"

/-- The numbers queued for one kind of entity, those for indexing first. -/
def EntityCounts.toJson (counts : EntityCounts) : Json :=
  .array [.natural counts.queued, .natural counts.removed]

def ReconciliationReport.toJson (report : ReconciliationReport) : Json :=
  .ofFields [
    ("mode", .string report.mode.name),
    ("learning_materials", report.learningMaterials.toJson),
    ("courses", report.courses.toJson),
    ("sessions", report.sessions.toJson),
    ("mesh_descriptors", report.meshDescriptors.toJson),
    ("messages", .natural report.messages)]

end LearningIndex
