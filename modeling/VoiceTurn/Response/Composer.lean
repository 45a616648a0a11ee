import VoiceTurn.Response.Intent
import VoiceTurn.Text.Placeholder
import VoiceTurn.Text.Lowercase

/-!
# Spoken responses

A composer turns an intent payload into a sentence by filling the placeholders of a template: first
the named values in their order, then `intent`, then `text`. A payload without a named intent gets
a fixed sentence.
-/

namespace VoiceTurn.Response

/-- The templates of responses as they are configured, by the name of the intent. -/
structure Phrases where
  templates : Dict String := .empty
  /-- The template for intents without one of their own. -/
  general : String := "Recognized \x7bintent\x7d"
  /-- The sentence for payloads without an intent. -/
  fallback : String := "Sorry, I did not understand that."

/-- A `Phrases` whose templates are looked up by the `lowercase` name of the intent. -/
structure Composer where
  templates : Dict String
  general : String
  fallback : String

namespace Composer

/-- The composer for configured phrases. Of templates whose names have the same `lowercase` form,
the one whose name comes last in the order of bytes is taken; a hash map would keep whichever it
yields last. -/
def ofPhrases (p : Phrases) : Composer where
  templates := Dict.ofList (p.templates.entries.map fun (name, t) => (lowercase name, t))
  general := p.general
  fallback := p.fallback

/-- The template for an intent, or `general`. -/
def templateFor (c : Composer) (name : String) : String :=
  (c.templates.get? (lowercase name)).getD c.general

/-- Fills the placeholders of a template one after the other (`Placeholder.fill`). -/
def fillAll (bindings : List (String × String)) (template : List Char) : List Char :=
  bindings.foldl (fun text (name, value) => Placeholder.fill name.toList value.toList text) template

theorem fillAll_cons (b : String × String) (bs : List (String × String)) (text : List Char) :
    fillAll (b :: bs) text = fillAll bs (Placeholder.fill b.1.toList b.2.toList text) := rfl

theorem fillAll_append (bs cs : List (String × String)) (text : List Char) :
    fillAll (bs ++ cs) text = fillAll cs (fillAll bs text) := List.foldl_append

/-- What the placeholders of a template stand for: the values, and then `intent` and `text`. -/
def bindings (i : Intent) : List (String × String) :=
  i.values ++ [("intent", i.name), ("text", i.text)]

/-- The sentence to speak for an intent payload, which is `fallback` when there is no name of an
intent. -/
def compose (c : Composer) (payload : Bytes) : String :=
  match Intent.read? payload with
  | some i =>
    if i.name.toList.isEmpty then c.fallback
    else String.ofList (fillAll (bindings i) (c.templateFor i.name).toList)
  | none => c.fallback

/-- The payload that asks speech synthesis for the sentence of `compose`. -/
def render (c : Composer) (payload : Bytes) : Bytes :=
  Utf8.encode (Json.Value.object [("text", .string (c.compose payload))]).render

end Composer

end VoiceTurn.Response
