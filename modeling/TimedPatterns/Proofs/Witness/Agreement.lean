import TimedPatterns.Proofs.Witness.Document
import TimedPatterns.Proofs.Witness.Listing
import TimedPatterns.Witness.Extraction

/-!
# The two forms of a witness agree

The listing of a chain and its document are read into the same witness. So against every clock
they give the same trace, or are malformed for the same reason: a lower bound is out of range, or
the clock falls.
-/

namespace TimedPatterns

/-- A document of a chain and a listing of it give the same result, which is that of the chain. -/
theorem Extraction.traceOfText_agrees {c : Chain} (h : c.Written) (r : Rendering c)
    {locations : Nat → List Char} (hlocations : ∀ i, ∀ x ∈ locations i, x ≠ '\n')
    (clock path : String) :
    traceOfText .xml clock path r.document = traceOfText .xtr clock path (c.listing locations) ∧
      traceOfText .xtr clock path (c.listing locations) =
        (c.witness.trace clock).mapError (.malformed path) := by
  have hdocument : Witness.read .xml r.document = .ok c.witness := r.read_document h
  have hlisting : Witness.read .xtr (c.listing locations) = .ok c.witness :=
    Listing.read_listing h hlocations
  rw [traceOfText, traceOfText, hdocument, hlisting]
  exact ⟨rfl, rfl⟩

/-! ### A chain with bounds at the ends of their range -/

namespace Chain

/-- Two processes that synchronise, take an internal step, stay where they are and synchronise
again. -/
def exchange : Chain where
  first := [⟨"t(0)", "x", 0, false⟩]
  steps := [
    ([⟨"P", "idle", "sent", some "send!"⟩, ⟨"Q(0)", "idle", "got[1]", some "send?"⟩],
      [⟨"t(0)", "x", -1, true⟩, ⟨"x", "t(0)", 9223372036854775807, false⟩]),
    ([⟨"P", "sent", "idle", none⟩], [⟨"P.y", "x", -3, true⟩]),
    ([], []),
    ([⟨"Q(0)", "got[1]", "idle", some "ack!"⟩],
      [⟨"t(0)", "x", -2, false⟩, ⟨"t(0)", "P.y", -9223372036854775808, false⟩])]

end Chain

theorem Extraction.traceOfText_agrees_exchange :
    let document := (Rendering.numbered Chain.exchange).document
    let listing := Chain.exchange.listing fun _ => "P.idle Q(0).idle".toList
    Chain.exchange.Written ∧
      traceOfText .xml "x" "run" document = traceOfText .xtr "x" "run" listing ∧
      traceOfText .xml "x" "run" document = .ok ⟨"x", [
        ⟨"send", [⟨"P", "idle", "sent"⟩, ⟨"Q(0)", "idle", "got[1]"⟩],
          ⟨1, some 9223372036854775807⟩⟩,
        ⟨"ack", [⟨"Q(0)", "got[1]", "idle"⟩], ⟨2, none⟩⟩], by decide⟩ ∧
      traceOfText .xml "P.y" "run" document = traceOfText .xtr "P.y" "run" listing ∧
      traceOfText .xml "P.y" "run" document =
        .error (.malformed "run" (.lowerOutOfRange (-9223372036854775808) "P.y")) := by
  have hwritten : Chain.exchange.Written := by decide +kernel
  have hlocations : ∀ x ∈ "P.idle Q(0).idle".toList, x ≠ '\n' := by simp
  have hx := traceOfText_agrees hwritten (.numbered _) (fun _ => hlocations) "x" "run"
  have hy := traceOfText_agrees hwritten (.numbered _) (fun _ => hlocations) "P.y" "run"
  exact ⟨hwritten, hx.1, hx.1.trans (hx.2.trans rfl), hy.1, hy.1.trans (hy.2.trans rfl)⟩

end TimedPatterns
