import WaxxyLive.Firestore

/-!
# Host and listener registration

The two finishing screens of the registration wizard: `addUserToDB` asks Auth
for an account and, in the completion of that call, writes the profile
document under the typed username. Text fields are read in the completion.
`UITextField.text` is never nil, so the `guard let`s there always pass.
-/

namespace WaxxyLive.Registration

open Firestore

/-! ## Auth -/

/-- Auth's accounts: the password of each email. -/
abbrev Accounts := AList fun _ : String => String

/-- `createUser(withEmail:password:)`; an email with an account is refused. -/
def Accounts.createUser (accounts : Accounts) (email password : String) : Option Accounts :=
  if email ∈ accounts then none else some (accounts.insert email password)

/-- `signIn(withEmail:password:)` -/
def Accounts.accepts (accounts : Accounts) (email password : String) : Bool :=
  accounts.lookup email = some password

/-! ## What the two screens write -/

inductive Role where
  | host
  | listener
  deriving DecidableEq, Repr

/-- The texts on the host screen when its `createUser` call completes. -/
structure HostTexts where
  username : String
  topGenres : String
  hostType : String
  region : String
  deriving DecidableEq, Repr

/-- The texts on the finishing screen of a role. -/
inductive Entry where
  | host (texts : HostTexts)
  | listener (username : String) (genreTags : List String)
  deriving DecidableEq, Repr

namespace HostRegistrationViewController

def collection : List String := ["hosts"]

def docData (email : String) (texts : HostTexts) : Document :=
  [(⟨"email", .string email⟩ : (_ : String) × Value),
    ⟨"username", .string texts.username⟩,
    ⟨"topGenres", .string texts.topGenres⟩,
    ⟨"hostType", .string texts.hostType⟩,
    ⟨"region", .string texts.region⟩,
    ⟨"numSubscribers", .number 0⟩].toAList

end HostRegistrationViewController

namespace ListenerRegistrationViewController

def collection : List String := ["listeners"]

def docData (email username : String) (genreTags : List String) : Document :=
  [(⟨"email", .string email⟩ : (_ : String) × Value),
    ⟨"username", .string username⟩,
    ⟨"topGenres", .array (genreTags.map .string)⟩].toAList

end ListenerRegistrationViewController

/-- The collection `addUserToDB` of a role writes to. -/
def Role.collection : Role → List String
  | .host => HostRegistrationViewController.collection
  | .listener => ListenerRegistrationViewController.collection

def Entry.role : Entry → Role
  | .host _ => .host
  | .listener _ _ => .listener

def Entry.username : Entry → String
  | .host texts => texts.username
  | .listener username _ => username

/-- A profile: the email of its account and the texts it was registered with. -/
structure Profile where
  email : String
  entry : Entry
  deriving DecidableEq, Repr

namespace Profile

def docData (p : Profile) : Document :=
  match p.entry with
  | .host texts => HostRegistrationViewController.docData p.email texts
  | .listener username genreTags =>
    ListenerRegistrationViewController.docData p.email username genreTags

/-- `db.collection(..).document(username)` in the completion of `createUser`;
`none` is the SDK's trap on a username that is no document path. -/
def reference (p : Profile) : Option DocumentReference :=
  document p.entry.role.collection p.entry.username

/-- The profile goes to the collection of its role exactly when the username is one path segment. -/
theorem reference_in_collection_iff {p : Profile} {id : String} :
    p.reference = some ⟨p.entry.role.collection, id⟩ ↔
      resourcePath p.entry.username = some [id] := by
  rw [reference]
  cases p.entry.role
  · exact document_in_collection_iff
  · exact document_in_collection_iff

end Profile

/-! ## The documents field by field -/

section docData

variable (email : String) (texts : HostTexts)

@[simp] theorem docData_lookup (field : String) :
    (HostRegistrationViewController.docData email texts).lookup field =
      if field = "email" then some (.string email)
      else if field = "username" then some (.string texts.username)
      else if field = "topGenres" then some (.string texts.topGenres)
      else if field = "hostType" then some (.string texts.hostType)
      else if field = "region" then some (.string texts.region)
      else if field = "numSubscribers" then some (.number 0)
      else none := by
  rw [HostRegistrationViewController.docData, AList.lookup_to_alist]
  simp only [dlookup_cons, List.dlookup_nil]

end docData

/-! ## A host for the concrete runs -/

def djTexts : HostTexts := ⟨"dj", "House,Techno", "DJ", "Detroit"⟩
def djProfile : Profile := ⟨"dj@waxxy.live", .host djTexts⟩

def djReference : DocumentReference := ⟨["hosts"], "dj"⟩

/-- A store that holds the profile document of `djProfile`. -/
def djStore : Database := Database.setData ∅ djReference djProfile.docData

end WaxxyLive.Registration
