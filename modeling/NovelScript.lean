import NovelScript.Main
import NovelScript.Proofs.Layout
import NovelScript.Proofs.Quoted
import NovelScript.Proofs.Text
import NovelScript.Proofs.Forms
import NovelScript.Proofs.Pieces
import NovelScript.Proofs.Reread
import NovelScript.Proofs.Representable
import NovelScript.Proofs.WellFormed
import NovelScript.Proofs.LineCount
import NovelScript.Proofs.Document.Refusals
import NovelScript.Proofs.Document.NormalForm
import NovelScript.Proofs.Document.FirstFault
import NovelScript.Proofs.Accounting
import NovelScript.Proofs.Requests
import NovelScript.Proofs.Shape
import NovelScript.Proofs.Check.Places
import NovelScript.Proofs.Check.Faults
import NovelScript.Proofs.Check.Order
import NovelScript.Proofs.Check.Rearranged
import NovelScript.Proofs.Concatenation
import NovelScript.Proofs.Indentation
import NovelScript.Proofs.Files.ScriptFile
import NovelScript.Proofs.Saving
import NovelScript.Proofs.Logging
import NovelScript.Proofs.Settings
import NovelScript.Proofs.Remembered
import NovelScript.Proofs.Reports
import NovelScript.Proofs.Reserved
import NovelScript.Proofs.Requoted
import NovelScript.Proofs.Document.Expressions
import NovelScript.Proofs.Cast
import NovelScript.Proofs.Clauses
import NovelScript.Proofs.Registers
import NovelScript.Proofs.Addresses
import NovelScript.Proofs.Numbering
import NovelScript.Proofs.QuotedForms
