import ViewTemplates.View
import ViewTemplates.Proofs.Render.Draft
import ViewTemplates.Proofs.Render.Frame
import ViewTemplates.Proofs.Render.Moments
import ViewTemplates.Proofs.Render.Passage
import ViewTemplates.Proofs.Render.Balance
import ViewTemplates.Proofs.Render.Stackless
import ViewTemplates.Proofs.Render.Success
import ViewTemplates.Proofs.Render.Compare
import ViewTemplates.Proofs.Render.Locality
import ViewTemplates.Proofs.Markup.Grammar
import ViewTemplates.Proofs.Markup.Canonical
import ViewTemplates.Proofs.Render.Outline
import ViewTemplates.Proofs.Render.Pieces
import ViewTemplates.Proofs.Render.Faults
import ViewTemplates.Proofs.Render.Limit
import ViewTemplates.Proofs.Render.Visits
import ViewTemplates.Proofs.Render.Discard
import ViewTemplates.Proofs.Render.Contents
import ViewTemplates.Proofs.Render.Inclusion
import ViewTemplates.Proofs.Render.Extension
import ViewTemplates.Proofs.Render.Override
import ViewTemplates.Proofs.Render.SelfInclusion
import ViewTemplates.Proofs.Render.Removal
import ViewTemplates.Proofs.Markup.Rejection
import ViewTemplates.Proofs.Markup.Caret
import ViewTemplates.Proofs.Markup.Concatenation
import ViewTemplates.Proofs.Render.Escape
import ViewTemplates.Proofs.Markup.Location
import ViewTemplates.Proofs.Section.Occurrences
import ViewTemplates.Proofs.Render.Refill
import ViewTemplates.Proofs.Diagnostic
