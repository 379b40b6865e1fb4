import Folio.Proofs.Session.Circulation

/-!
# What rebuilding costs

To rebuild a paragraph is to give its elements back to the pool and to acquire as many words and
as many controls again.  Nothing that was done in between changes these numbers: marks and open
nodes leave the text of a paragraph as it is.  So as long as the pool has room for what one fill
builds, all of it is found among the free elements and nothing is created.  What was free before
makes way if there is not room for both.
-/

namespace Folio

namespace Circulation

variable {circulation : Circulation}

section

variable
    {rules : Language → WordBreak → TextRules}
    {option : WordBreak}
    {id : ParagraphId}
    {paragraph : BuiltParagraph}

end

end Circulation

end Folio
