import Reconcile.Document.Json.Serializer

namespace Reconcile.Hours

inductive Error
  | missingTimes (segment : String)
  | missingClosing (range : String)
  | unknownDay (day : String)
  | invalidHour (time : String)
deriving DecidableEq, Repr

def Error.message : Error → String
  | .missingTimes segment => "segment `" ++ segment ++ "` has no time range"
  | .missingClosing range => "time range `" ++ range ++ "` has no closing time"
  | .unknownDay day =>
    "unknown day `" ++ day ++ "`; expected one of Mon, Tue, Wed, Thu, Fri, Sat, Sun"
  | .invalidHour time => "invalid hour in time `" ++ time ++ "`"

inductive ExpansionError (serializer : Serializer)
  | schedule (cause : Error)
  | serialize (cause : serializer.Failure)

def ExpansionError.message {serializer : Serializer} : ExpansionError serializer → String
  | .schedule cause => cause.message
  | .serialize cause => "failed to serialize business hours: " ++ serializer.message cause

end Reconcile.Hours
