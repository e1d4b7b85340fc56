import HostBoundary.Proofs.DraftText
import HostBoundary.Proofs.TreeScan

/-!
# Scanning the text of a draft

The builder of drafts and the scanner were written apart, and the scanner knows
nothing of outputs and intents.  Still it reads what the builder wrote: under each
key of a draft it finds the value that stands there first.

## What could go wrong

* The name of a kind of output is a key as well: `resource`.  As a value it has no
  colon behind it, so it is not found.
* A version stands without quotation marks, so the pass for quoted values must not
  find one further on.  It does not, since no draft has a quoted value under that
  key.
* An empty value makes the scan try again.  It then stops at the same place, since
  the first value under the key is the one that was empty.
* The braces of the parameters of an intent are counted, and no leaf has a brace.

## Main results

* `Draft.entries` — what a draft shows, in the order of its text.
* `Draft.scan_text` — what is found under each key, and the parameters of the first
  intent.
-/

namespace HostBoundary

/-! ## The entries of a draft -/

/-- The members of an output that are a text or a number, with what is written. -/
def OutputDraft.entries : OutputDraft → List (String × String)
  | asset owner amount tokenId => [
      ("type", "asset"),
      ("owner", owner.toHex),
      ("amount", decimal amount),
      ("token_id", tokenHex tokenId)]
  | state stateId version execHash => [
      ("type", "state"),
      ("state_id", Base64.encode stateId),
      ("version", decimal version),
      ("exec_hash", Base64.encode execHash.toBytes)]
  | resource content _ => [
      ("type", "resource"),
      ("resource", Base64.encode content)]

/-- The members of an intent that are a text, its parameters among them, with what
is written. -/
def IntentDraft.entries : IntentDraft → List (String × String)
  | transfer sender recipient amount tokenId => [
      ("type", "transfer"),
      ("from", sender.toHex),
      ("to", recipient.toHex),
      ("token_id", tokenHex tokenId),
      ("amount", decimal amount)]
  | stake staker amount validator => [
      ("type", "stake"),
      ("staker", staker.toHex),
      ("amount", decimal amount),
      ("validator", validator.toHex)]

namespace Draft

/-- The sign mode, then what the outputs show in their order, then what the intents
show in theirs. -/
def entries (draft : Draft) : List (String × String) :=
  ("sign_mode", draft.signMode.name) ::
    (draft.outputs.flatMap OutputDraft.entries ++ draft.intents.flatMap IntentDraft.entries)

/-- The keys under which a draft shows something. -/
def keys : List String := [
  "sign_mode", "type", "owner", "amount", "token_id", "state_id", "version", "exec_hash",
  "resource", "from", "to", "staker", "validator"]

/-- What stands in the first place that carries a key, and nothing if no place does. -/
def firstEntry (draft : Draft) (key : String) : String :=
  ((draft.entries.find? fun entry => entry.1 = key).map fun entry => entry.2).getD ""

/-- The parameters of the first intent, in their braces, and nothing if there is no
intent. -/
def firstParams (draft : Draft) : String :=
  match draft.intents with
  | [] => ""
  | intent :: _ => .join ["\x7b", intent.params, "\x7d"]

end Draft

open Json

/-! ## The tree of a draft is plain -/

theorem plainText_tokenHex (tokenId : Option String) : PlainText (tokenHex tokenId) := by
  rw [tokenHex_eq]
  exact plainText_hex _

theorem plain_addressLeaf (address : Address) : Plain (addressLeaf address) :=
  .string (plainText_hex _)

theorem plain_base64Leaf (bytes : Bytes) : Plain (base64Leaf bytes) := .string (plainText_base64 _)

theorem plain_amountLeaf (amount : UInt64) : Plain (amountLeaf amount) :=
  .string (plainText_decimal _)

theorem OutputDraft.plain_toJson (output : OutputDraft) : Plain output.toJson := by
  cases output with
  | asset owner amount tokenId =>
    refine plain_object ?_
    simp only [List.forall_mem_cons]
    exact ⟨⟨by decide, .string (by decide)⟩, ⟨by decide, plain_addressLeaf _⟩,
      ⟨by decide, plain_amountLeaf _⟩, ⟨by decide, .string (plainText_tokenHex _)⟩,
      ⟨by decide, .object nofun nofun⟩, nofun⟩
  | state stateId version execHash =>
    refine plain_object ?_
    simp only [List.forall_mem_cons]
    exact ⟨⟨by decide, .string (by decide)⟩, ⟨by decide, plain_base64Leaf _⟩,
      ⟨by decide, .nat _⟩, ⟨by decide, plain_base64Leaf _⟩, nofun⟩
  | resource content owner =>
    refine plain_object ?_
    simp only [List.forall_mem_cons]
    exact ⟨⟨by decide, .string (by decide)⟩, ⟨by decide, plain_base64Leaf _⟩, nofun⟩

theorem IntentDraft.plain_paramsJson (intent : IntentDraft) : Plain intent.paramsJson := by
  cases intent with
  | transfer sender recipient amount tokenId =>
    refine plain_object ?_
    simp only [List.forall_mem_cons]
    exact ⟨⟨by decide, plain_addressLeaf _⟩, ⟨by decide, plain_addressLeaf _⟩,
      ⟨by decide, .string (plainText_tokenHex _)⟩, ⟨by decide, plain_amountLeaf _⟩, nofun⟩
  | stake staker amount validator =>
    refine plain_object ?_
    simp only [List.forall_mem_cons]
    exact ⟨⟨by decide, plain_addressLeaf _⟩, ⟨by decide, plain_amountLeaf _⟩,
      ⟨by decide, plain_addressLeaf _⟩, nofun⟩

theorem IntentDraft.plain_toJson (intent : IntentDraft) : Plain intent.toJson := by
  have transfer : PlainText "transfer" := by decide
  have stake : PlainText "stake" := by decide
  have named : PlainText intent.typeName := by
    cases intent with
    | transfer => exact transfer
    | stake => exact stake
  refine plain_object ?_
  simp only [List.forall_mem_cons]
  exact ⟨⟨by decide, .string named⟩, ⟨by decide, intent.plain_paramsJson⟩, nofun⟩

theorem Draft.plain_toJson (draft : Draft) : Plain draft.toJson := by
  have mode : PlainText draft.signMode.name := by cases draft.signMode <;> decide
  have outputs : Plain (.array (draft.outputs.map OutputDraft.toJson)) := by
    refine .array ?_
    rw [List.forall_mem_map]
    exact fun output _ => output.plain_toJson
  have intents : Plain (.array (draft.intents.map IntentDraft.toJson)) := by
    refine .array ?_
    rw [List.forall_mem_map]
    exact fun intent _ => intent.plain_toJson
  refine plain_object ?_
  simp only [List.forall_mem_cons]
  exact ⟨⟨by decide, .string mode⟩, ⟨by decide, outputs⟩, ⟨by decide, intents⟩, nofun⟩

/-! ## The labels of a draft -/

theorem Draft.labels_toJson (draft : Draft) : draft.toJson.labels =
    ("sign_mode", .string draft.signMode.name) ::
    ("outputs", .array (draft.outputs.map OutputDraft.toJson)) ::
    (draft.outputs.flatMap (fun output => output.toJson.labels) ++
    ("intents", .array (draft.intents.map IntentDraft.toJson)) ::
    draft.intents.flatMap fun intent => intent.toJson.labels) := by
  rw [Draft.toJson]
  simp only [labels, membersLabels, itemsLabels_eq_flatMap, List.flatMap_map, List.nil_append,
    List.append_nil]

/-- A member that a scan shows: a text or a number. -/
def Json.isLeaf : Json → Bool
  | .string _ => true
  | .number _ => true
  | _ => false

/-- What the leaves among members show, under their names. -/
def Json.leaves (members : List (String × Json)) : List (String × String) :=
  (members.filter fun m => isLeaf m.2).map fun m => (m.1, m.2.shown)

theorem OutputDraft.leaves_labels (output : OutputDraft) :
    leaves output.toJson.labels = output.entries := by
  cases output <;> rfl

theorem IntentDraft.leaves_labels (intent : IntentDraft) :
    leaves intent.toJson.labels = intent.entries := by
  cases intent <;> rfl

theorem Json.leaves_append (first second : List (String × Json)) :
    leaves (first ++ second) = leaves first ++ leaves second := by
  rw [leaves, List.filter_append, List.map_append]
  rfl

theorem Json.leaves_flatMap {α : Type} (items : List α) (members : α → List (String × Json)) :
    leaves (items.flatMap members) = items.flatMap fun a => leaves (members a) := by
  induction items with
  | nil => rfl
  | cons a items ih => rw [List.flatMap_cons, leaves_append, ih, List.flatMap_cons]

/-- The entries of a draft are the leaves of its tree. -/
theorem Draft.leaves_labels (draft : Draft) : leaves draft.toJson.labels = draft.entries := by
  have outputs : leaves (draft.outputs.flatMap fun output => output.toJson.labels)
      = draft.outputs.flatMap OutputDraft.entries := by
    rw [leaves_flatMap]
    exact List.flatMap_congr fun output _ => output.leaves_labels
  have intents : leaves (draft.intents.flatMap fun intent => intent.toJson.labels)
      = draft.intents.flatMap IntentDraft.entries := by
    rw [leaves_flatMap]
    exact List.flatMap_congr fun intent _ => intent.leaves_labels
  have front (m : List (String × Json)) : leaves (("sign_mode", .string draft.signMode.name) ::
      ("outputs", .array (draft.outputs.map OutputDraft.toJson)) :: m)
        = ("sign_mode", draft.signMode.name) :: leaves m := rfl
  have between (m : List (String × Json)) :
      leaves (("intents", .array (draft.intents.map IntentDraft.toJson)) :: m) = leaves m := rfl
  rw [labels_toJson, front, leaves_append, between, outputs, intents, entries]

/-- Under a key of a draft stands a leaf: a number under `version`, and a text under
every other one. -/
def Draft.Fits (member : String × Json) : Prop :=
  member.1 ∈ keys →
    isLeaf member.2 = true ∧ member.2.isString = decide (member.1 ≠ "version")

theorem OutputDraft.fits_labels (output : OutputDraft) :
    ∀ m ∈ output.toJson.labels, Draft.Fits m := by
  cases output with
  | asset owner amount tokenId =>
    simp [toJson, labels, membersLabels, addressLeaf, amountLeaf, isString, isLeaf, Draft.Fits,
      Draft.keys]
  | state stateId version execHash =>
    simp [toJson, labels, membersLabels, base64Leaf, nat, isString, isLeaf, Draft.Fits, Draft.keys]
  | resource content owner =>
    simp [toJson, labels, membersLabels, base64Leaf, isString, isLeaf, Draft.Fits, Draft.keys]

theorem IntentDraft.fits_labels (intent : IntentDraft) :
    ∀ m ∈ intent.toJson.labels, Draft.Fits m := by
  cases intent with
  | transfer sender recipient amount tokenId =>
    simp [toJson, paramsJson, labels, membersLabels, addressLeaf, amountLeaf, isString, isLeaf,
      Draft.Fits, Draft.keys]
  | stake staker amount validator =>
    simp [toJson, paramsJson, labels, membersLabels, addressLeaf, amountLeaf, isString, isLeaf,
      Draft.Fits, Draft.keys]

theorem Draft.fits_labels (draft : Draft) : ∀ m ∈ draft.toJson.labels, Fits m := by
  have array (name : String) (items : List Json) (other : name ∉ keys) :
      Fits (name, .array items) := fun mem => absurd mem other
  rw [labels_toJson]
  simp only [List.forall_mem_cons, List.forall_mem_append, List.forall_mem_flatMap]
  have texts : decide ("sign_mode" ≠ "version") = true := by decide
  exact ⟨fun _ => ⟨rfl, texts.symm⟩, array _ _ (by decide), fun output _ => output.fits_labels,
    array _ _ (by decide), fun intent _ => intent.fits_labels⟩

/-! ## What is found -/

/-- The first member under a key of a draft is the first entry. -/
theorem Draft.find?_labels (draft : Draft) {key : String} (known : key ∈ keys) :
    (draft.toJson.labels.find? (·.1 = key)).map (·.2.shown)
      = (draft.entries.find? fun entry => entry.1 = key).map fun entry => entry.2 := by
  rw [← leaves_labels, leaves, List.find?_map, List.find?_filter, Option.map_map]
  have fits := draft.fits_labels
  congr 1
  apply List.find?_congr
  intro m mem
  by_cases named : m.1 = key
  · have leaf := (fits m mem (named ▸ known)).1
    simp [named, leaf]
  · simp [named]

/-- No member of an output is the parameters of an intent. -/
theorem OutputDraft.find?_params (output : OutputDraft) :
    (output.toJson.labels.find? fun m => m.1 = "params" && m.2.isObject) = none := by
  cases output <;> rfl

/-- The first parameters of a draft are those of its first intent. -/
theorem Draft.find?_params (draft : Draft) :
    (draft.toJson.labels.find? fun m => m.1 = "params" && m.2.isObject)
      = draft.intents.head?.map fun intent => ("params", intent.paramsJson) := by
  have outputs : ((draft.outputs.flatMap fun output => output.toJson.labels).find? fun m =>
      m.1 = "params" && m.2.isObject) = none := by
    rw [List.find?_flatMap, List.findSome?_eq_none_iff]
    exact fun output _ => output.find?_params
  rw [labels_toJson, List.find?_cons_of_neg (by simp), List.find?_cons_of_neg (by simp),
    List.find?_append, outputs, List.find?_cons_of_neg (by simp), Option.none_or]
  cases draft.intents with
  | nil => rfl
  | cons intent intents =>
    rw [List.flatMap_cons, List.find?_append]
    cases intent <;> rfl

/-- The parameters of an intent stand in the text as they are written there. -/
theorem IntentDraft.text_paramsJson (intent : IntentDraft) :
    intent.paramsJson.text = .join ["\x7b", intent.params, "\x7d"] := by
  apply String.toList_inj.mp
  rw [Json.text, String.toList_ofList]
  cases intent with
  | transfer sender recipient amount tokenId =>
    simp (disch := decide) [paramsJson, params, Json.chars, Json.membersChars,
      Json.Unescaped.stringChars, (unescaped_tokenHex tokenId).stringChars]
  | stake staker amount validator =>
    simp (disch := decide) [paramsJson, params, Json.chars, Json.membersChars,
      Json.Unescaped.stringChars]

/-- **The scanner reads what the builder wrote.**  Under each key of a draft it finds
the first entry with that key, and under `params` the parameters of the first
intent. -/
theorem Draft.scan_text (draft : Draft) :
    (∀ key ∈ Draft.keys, Scan.field draft.text key = draft.firstEntry key) ∧
      Scan.object draft.text "params" = draft.firstParams := by
  rw [text_eq]
  constructor
  · intro key known
    have words : ∀ key ∈ keys, Word (Utf8.encode key) := by decide
    rw [draft.plain_toJson.field_text_of_uniform (words key known) (decide (key ≠ "version")),
      draft.find?_labels known, firstEntry]
    rintro m mem rfl
    exact (draft.fits_labels m mem known).2
  · rw [draft.plain_toJson.object_text (by decide), draft.find?_params, firstParams]
    cases draft.intents with
    | nil => rfl
    | cons intent intents => exact intent.text_paramsJson

/-- An empty token id keeps the later one from being found, a version is found without
quotation marks, and `resource` is found as a key behind where it is a value.  The token id
of the transfer stands among its parameters, and is found where no asset comes before it. -/
theorem Draft.scan_text_shadowed :
    let intents : List IntentDraft := [.transfer .zero .zero 9 (some "T"), .stake .zero 4 .zero]
    let draft : Draft := ⟨.delegated,
      [.asset .zero 7 none, .resource [1, 2, 3] .zero, .state [65] 5 .zero], intents⟩
    Scan.field draft.text "token_id" = "" ∧ Scan.field draft.text "version" = "5" ∧
      Scan.field draft.text "resource" = "AQID" ∧ Scan.field draft.text "amount" = "7" ∧
      Scan.object draft.text "params" = .join [
        "\x7b\"from\":\"0000000000000000000000000000000000000000\",",
        "\"to\":\"0000000000000000000000000000000000000000\",",
        "\"token_id\":\"54\",\"amount\":\"9\"\x7d"] ∧
      Scan.field (Draft.text ⟨.delegated, [], intents⟩) "token_id" = "54" ∧
      Scan.field (Draft.text ⟨.delegated, [.asset .zero 7 (some "G\"")], intents⟩) "token_id"
        = "4722" := by
  intro intents draft
  have scanned := Draft.scan_text draft
  have unshadowed := Draft.scan_text ⟨.delegated, [], intents⟩
  have named := Draft.scan_text ⟨.delegated, [.asset .zero 7 (some "G\"")], intents⟩
  exact ⟨(scanned.1 "token_id" (by decide)).trans (by decide),
    (scanned.1 "version" (by decide)).trans (by decide),
    (scanned.1 "resource" (by decide)).trans (by decide),
    (scanned.1 "amount" (by decide)).trans (by decide),
    scanned.2.trans (by decide +kernel),
    (unshadowed.1 "token_id" (by decide)).trans (by decide),
    (named.1 "token_id" (by decide)).trans (by decide)⟩

end HostBoundary
