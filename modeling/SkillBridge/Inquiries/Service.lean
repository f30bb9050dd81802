import SkillBridge.Database.Statements

set_option autoImplicit false

/-! The waitlist of `src/modules/inquiries/inquiries.service.ts`, with its table, and the contact messages. -/

namespace SkillBridge

open Interleaving

inductive JoiningAs
  | talent
  | employer
  deriving DecidableEq

structure JoinWaitlistDto where
  joiningAs : JoiningAs
  fullName : String
  email : String
  preferredRole : Option String := none
  referralSource : Option String := none

structure NewWaitlistEntry where
  email : String
  joiningAs : Option JoiningAs
  fullName : Option String
  preferredRole : Option String
  referralSource : Option String
  deriving DecidableEq

def NewWaitlistEntry.fits (entry : NewWaitlistEntry) : Bool :=
  fitsColumns [(some 255, some entry.email), (some 255, entry.fullName), (some 255, entry.preferredRole),
    (some 255, entry.referralSource)]

structure WaitlistEntry extends NewWaitlistEntry where
  id : ℕ
  createdAt : ℕ
  deriving DecidableEq

inductive WaitlistOp
  | findOne (email : String)
  | save (entry : NewWaitlistEntry)

def WaitlistOp.Res : WaitlistOp → Type
  | findOne _ => Option WaitlistEntry
  | save _ => WaitlistEntry

structure Waitlist where
  entries : List WaitlistEntry
  fresh : ℕ
  now : ℕ

abbrev waitlistRepository : Signature := ⟨WaitlistOp, WaitlistOp.Res, Failure⟩

def Waitlist.exec : (o : WaitlistOp) → Unit → Waitlist → Option (waitlistRepository.Reply o × Waitlist)
  | .findOne email, _, w => some (.ok (w.entries.find? fun entry => entry.email = email), w)
  | .save entry, _, w =>
    if !entry.fits then some (.error (.queryFailed .dataException), w)
    else if w.entries.any fun other => other.email = entry.email then
      some (.error (.queryFailed .uniqueViolation), w)
    else
      let row : WaitlistEntry := { entry with id := w.fresh, createdAt := w.now }
      some (.ok row, { w with entries := w.entries ++ [row], fresh := w.fresh + 1 })

def waitlistServer : Machine waitlistRepository Waitlist Unit ℕ where
  exec := Waitlist.exec
  failure := infrastructureFailure
  env m w := { w with now := w.now + m }

structure CreateContactMessageDto where
  fullName : String
  email : String
  subject : String
  message : String

structure NewContactMessage where
  fullName : String
  email : String
  subject : String
  message : String

structure ContactMessage extends NewContactMessage where
  id : ℕ
  createdAt : ℕ

inductive ContactMessageOp
  | save (message : NewContactMessage)

def ContactMessageOp.Res : ContactMessageOp → Type
  | save _ => ContactMessage

abbrev contactMessageRepository : Signature := ⟨ContactMessageOp, ContactMessageOp.Res, Failure⟩

namespace InquiriesService

structure JoinResult where
  success : Bool
  message : String

/-- `email.trim().toLowerCase()`; what `toLowerCase` does is left open. -/
def normalizedEmail (toLowerCase : String → String) (email : String) : String := toLowerCase (trim email)

def joinWaitlist (toLowerCase : String → String) (dto : JoinWaitlistDto) : Prog waitlistRepository JoinResult := do
  let email := normalizedEmail toLowerCase dto.email
  match ← Prog.perform (S := waitlistRepository) (.findOne email) with
  | some _ => throw (conflictError ErrorMessages.EMAIL_ALREADY_ON_WAITLIST)
  | none =>
    let _ ← Prog.perform (S := waitlistRepository) (.save
      { email
        joiningAs := some dto.joiningAs
        fullName := some (trim dto.fullName)
        preferredRole := trimToNull dto.preferredRole
        referralSource := trimToNull dto.referralSource })
    pure { success := true, message := SuccessMessages.WAITLIST_JOINED }

def createContactMessage (toLowerCase : String → String) (dto : CreateContactMessageDto) :
    Prog contactMessageRepository JoinResult := do
  let _ ← Prog.perform (S := contactMessageRepository) (.save
    { fullName := trim dto.fullName
      email := normalizedEmail toLowerCase dto.email
      subject := trim dto.subject
      message := trim dto.message })
  pure { success := true, message := SuccessMessages.MESSAGE_RECEIVED }

end InquiriesService

end SkillBridge
