namespace RunWatch.Push

inductive Frame where
  | text (content : String)
  | binary (content : ByteArray)
  | ping (content : ByteArray)
  | pong (content : ByteArray)
  | raw (content : ByteArray)
  | close

def Frame.payload? : Frame → Option ByteArray
  | .text content => some content.toUTF8
  | .binary content => some content
  | .ping _ | .pong _ | .raw _ | .close => none

def Frame.size : Frame → Nat
  | .text content => content.utf8ByteSize
  | .binary content | .ping content | .pong content | .raw content => content.size
  | .close => 0

end RunWatch.Push
